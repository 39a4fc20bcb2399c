import MengXia.Cursors
import MengXia.Daemon.Classification
import MengXia.Daemon.QueryFrames
import MengXia.Intents
import MengXia.LibraryConfig
import MengXia.PluginProto.Codec
import MengXia.RequestDigests
import MengXia.Storage.Admission
import MengXia.Store.AssetListing
import MengXia.Store.Exhaustion
import MengXia.Store.InspectHistory
import MengXia.Store.Lifecycle
import MengXia.Store.Reopen
import MengXia.Store.RevisionGraph
import MengXia.Store.Startup
import MengXia.Store.StoredContent
import MengXia.Store.Supersession
import MengXia.Store.Wal
import MengXia.Varints
