import MengXia.Common.Txn
import MengXia.Domain
import Mathlib.Data.List.Sort
/-!
# Library configuration documents

A library's configuration is a text of a header line and lines `key=value`,
the keys in byte order. The parser keeps one value for each key; a document
that it accepts can be written back from those values byte for byte.
-/

namespace MengXia

open Common

/-- `LibraryConfigKey`, in the order of the keys. -/
inductive LibraryConfigKey where
  | blobRoot
  | clientEndpoint
  | clientHandshakeTimeoutMs
  | clientOperationTimeoutMs
  | dbBusyTimeoutMs
  | dbReadConnections
  | dbWriteQueue
  | hashConcurrency
  | ingestShutdownTimeoutMs
  | libraryRoot
  | logLevel
  | maxClientSessions
  | maxConcurrentIngests
  | maxDecodeDepth
  | maxFrameBytes
  | maxIngestBytes
  | maxIngestOperationTimeoutMs
  | maxMaterializeOperationTimeoutMs
  | maxMetadataOperationTimeoutMs
  | maxPendingHandshakes
  | maxStagingBytes
  | maxVerifyOperationTimeoutMs
  | minFreeBytes
  | minFreePercent
  | storageIoConcurrency
  | streamBufferBytes
  deriving DecidableEq

namespace LibraryConfigKey

/-- Every key. -/
def all : List LibraryConfigKey :=
  [.blobRoot, .clientEndpoint, .clientHandshakeTimeoutMs, .clientOperationTimeoutMs,
    .dbBusyTimeoutMs, .dbReadConnections, .dbWriteQueue, .hashConcurrency,
    .ingestShutdownTimeoutMs, .libraryRoot, .logLevel, .maxClientSessions, .maxConcurrentIngests,
    .maxDecodeDepth, .maxFrameBytes, .maxIngestBytes, .maxIngestOperationTimeoutMs,
    .maxMaterializeOperationTimeoutMs, .maxMetadataOperationTimeoutMs, .maxPendingHandshakes,
    .maxStagingBytes, .maxVerifyOperationTimeoutMs, .minFreeBytes, .minFreePercent,
    .storageIoConcurrency, .streamBufferBytes]

/-- The text of a key. -/
def text : LibraryConfigKey → String
  | .blobRoot => "MENGXIA_BLOB_ROOT"
  | .clientEndpoint => "MENGXIA_CLIENT_ENDPOINT"
  | .clientHandshakeTimeoutMs => "MENGXIA_CLIENT_HANDSHAKE_TIMEOUT_MS"
  | .clientOperationTimeoutMs => "MENGXIA_CLIENT_OPERATION_TIMEOUT_MS"
  | .dbBusyTimeoutMs => "MENGXIA_DB_BUSY_TIMEOUT_MS"
  | .dbReadConnections => "MENGXIA_DB_READ_CONNECTIONS"
  | .dbWriteQueue => "MENGXIA_DB_WRITE_QUEUE"
  | .hashConcurrency => "MENGXIA_HASH_CONCURRENCY"
  | .ingestShutdownTimeoutMs => "MENGXIA_INGEST_SHUTDOWN_TIMEOUT_MS"
  | .libraryRoot => "MENGXIA_LIBRARY_ROOT"
  | .logLevel => "MENGXIA_LOG_LEVEL"
  | .maxClientSessions => "MENGXIA_MAX_CLIENT_SESSIONS"
  | .maxConcurrentIngests => "MENGXIA_MAX_CONCURRENT_INGESTS"
  | .maxDecodeDepth => "MENGXIA_MAX_DECODE_DEPTH"
  | .maxFrameBytes => "MENGXIA_MAX_FRAME_BYTES"
  | .maxIngestBytes => "MENGXIA_MAX_INGEST_BYTES"
  | .maxIngestOperationTimeoutMs => "MENGXIA_MAX_INGEST_OPERATION_TIMEOUT_MS"
  | .maxMaterializeOperationTimeoutMs => "MENGXIA_MAX_MATERIALIZE_OPERATION_TIMEOUT_MS"
  | .maxMetadataOperationTimeoutMs => "MENGXIA_MAX_METADATA_OPERATION_TIMEOUT_MS"
  | .maxPendingHandshakes => "MENGXIA_MAX_PENDING_HANDSHAKES"
  | .maxStagingBytes => "MENGXIA_MAX_STAGING_BYTES"
  | .maxVerifyOperationTimeoutMs => "MENGXIA_MAX_VERIFY_OPERATION_TIMEOUT_MS"
  | .minFreeBytes => "MENGXIA_MIN_FREE_BYTES"
  | .minFreePercent => "MENGXIA_MIN_FREE_PERCENT"
  | .storageIoConcurrency => "MENGXIA_STORAGE_IO_CONCURRENCY"
  | .streamBufferBytes => "MENGXIA_STREAM_BUFFER_BYTES"

/-- The bytes of a key, which are ASCII. -/
def bytes (key : LibraryConfigKey) : Bytes :=
  key.text.toList.map fun c => UInt8.ofNat c.toNat

/-- `LibraryConfigKey::parse`. -/
def parse (value : Bytes) : Option LibraryConfigKey :=
  all.find? fun key => key.bytes = value

end LibraryConfigKey

/-- `HEADER`. -/
def libraryConfigHeader : Bytes :=
  "MENGXIA_LIBRARY_CONFIG_V1\n".toList.map fun c => UInt8.ofNat c.toNat

/-- `LibraryConfigDocument`. -/
structure LibraryConfigDocument where
  values : LibraryConfigKey → Option Bytes

/-- The variables of the loop of `parse`. -/
structure ConfigScan where
  values : LibraryConfigKey → Option Bytes
  previous : Option Bytes
  count : ℕ

/-- The control bytes, `\r` and NUL among them. -/
def isControlByte (byte : UInt8) : Bool :=
  byte < 0x20 || byte == 0x7f

/-- One line of `parse`. -/
def parseConfigLine (scan : ConfigScan) (line : Bytes) : Except ErrorCode ConfigScan :=
  if 64 < scan.count + 1 ∨ ¬(3 ≤ line.length ∧ line.length ≤ 2048) ∨ line.any isControlByte then
    .error .validationError
  else
    match line.idxOf? 0x3d with
    | none => .error .validationError
    | some separator =>
      let keyBytes := line.take separator
      let value := line.drop (separator + 1)
      if value = [] ∨ scan.previous.any (fun last => !(last < keyBytes)) then
        .error .validationError
      else
        match LibraryConfigKey.parse keyBytes with
        | none => .error .validationError
        | some key =>
          if (scan.values key).isSome then .error .validationError
          else .ok ⟨Function.update scan.values key (some value), some keyBytes, scan.count + 1⟩

/-- `LibraryConfigDocument::parse`. -/
def LibraryConfigDocument.parse (bytes : Bytes) : Except ErrorCode LibraryConfigDocument :=
  if 16384 < bytes.length ∨ ¬libraryConfigHeader <+: bytes ∨ ¬[0x0a] <:+ bytes ∨ 0 ∈ bytes ∨
      0x0d ∈ bytes then
    .error .validationError
  else
    let body := bytes.drop libraryConfigHeader.length
    let lines := body.dropLast
    if lines = [] ∧ body ≠ [] then .error .validationError
    else if lines = [] then .ok ⟨fun _ => none⟩
    else do
      let scan ← (lines.splitOn 0x0a).foldlM parseConfigLine ⟨fun _ => none, none, 0⟩
      return ⟨scan.values⟩

/-! ## Entries -/

/-- An entry of a document: a key and its value. -/
abbrev ConfigEntry : Type :=
  LibraryConfigKey × Bytes

/-- The line of an entry, without its end. -/
def configLine (entry : ConfigEntry) : Bytes :=
  entry.1.bytes ++ 0x3d :: entry.2

/-- The lines of entries, each with its end. -/
def configLines (entries : List ConfigEntry) : Bytes :=
  entries.flatMap fun entry => configLine entry ++ [0x0a]

/-- A line that a document may have. -/
structure ConfigLineOk (entry : ConfigEntry) : Prop where
  length : 3 ≤ (configLine entry).length ∧ (configLine entry).length ≤ 2048
  plain : ∀ byte ∈ configLine entry, isControlByte byte = false
  value : entry.2 ≠ []

/-- The keys of the entries are in byte order. -/
def ConfigSorted (entries : List ConfigEntry) : Prop :=
  entries.Pairwise fun a b => a.1.bytes < b.1.bytes

/-- The values of entries. -/
def configValues (entries : List ConfigEntry) (key : LibraryConfigKey) : Option Bytes :=
  (entries.find? fun entry => entry.1 = key).map Prod.snd

/-- **A document written back**: the header, then the keys in byte order with
their values. -/
def LibraryConfigDocument.render (document : LibraryConfigDocument) : Bytes :=
  libraryConfigHeader ++ configLines (LibraryConfigKey.all.filterMap fun key =>
    (document.values key).map fun value => (key, value))

namespace LibraryConfigKey

theorem mem_all (key : LibraryConfigKey) : key ∈ all := by
  cases key <;> decide

/-- The keys are in byte order, and no key has a byte that ends it or its line. -/
theorem all_checked :
    all.IsChain (fun a b => a.bytes < b.bytes) ∧
      ∀ key ∈ all, ∀ byte ∈ key.bytes, byte ≠ 0x3d ∧ byte ≠ 0x0a := by
  -- Bounded by `all`, or every byte there is would be tried.
  have hplain : all.all fun key => key.bytes.all fun byte => byte != 0x3d && byte != 0x0a := by
    decide +kernel
  exact ⟨by decide +kernel, by simpa using hplain⟩

/-- The keys are listed in byte order. -/
theorem all_sorted : all.Pairwise fun a b => a.bytes < b.bytes := by
  have htrans : Trans (fun a b : LibraryConfigKey => a.bytes < b.bytes)
      (fun a b : LibraryConfigKey => a.bytes < b.bytes)
      (fun a b : LibraryConfigKey => a.bytes < b.bytes) := ⟨fun h h' => List.lt_trans h h'⟩
  exact List.isChain_iff_pairwise.1 all_checked.1

/-- A key has neither `=` nor a newline. -/
theorem bytes_plain (key : LibraryConfigKey) :
    0x3d ∉ key.bytes ∧ 0x0a ∉ key.bytes := by
  have hplain := all_checked.2 key (mem_all key)
  exact ⟨fun hmem => (hplain _ hmem).1 rfl, fun hmem => (hplain _ hmem).2 rfl⟩

theorem bytes_injective {a b : LibraryConfigKey} (h : a.bytes = b.bytes) : a = b := by
  have hnodup : (all.map bytes).Nodup := by
    refine (List.pairwise_map.2 all_sorted).imp fun hlt heq => ?_
    rw [heq] at hlt
    exact List.lt_irrefl _ hlt
  exact List.inj_on_of_nodup_map hnodup (mem_all a) (mem_all b) h

/-- **A key is known by its bytes.** -/
theorem parse_eq_some {value : Bytes} {key : LibraryConfigKey} :
    parse value = some key ↔ value = key.bytes := by
  constructor
  · intro h
    have hfound := List.find?_some h
    simpa using (of_decide_eq_true hfound).symm
  · rintro rfl
    cases hfind : parse key.bytes with
    | none =>
      have hmissing := List.find?_eq_none.1 hfind key (mem_all key)
      simp at hmissing
    | some other =>
      have hfound := List.find?_some hfind
      rw [bytes_injective (of_decide_eq_true hfound)]

end LibraryConfigKey

/-! ## One line -/

theorem idxOf?_append_cons {pre rest : Bytes} {byte : UInt8} (h : byte ∉ pre) :
    (pre ++ byte :: rest).idxOf? byte = some pre.length := by
  rw [List.idxOf?_eq_some_iff]
  refine ⟨by simp, by simp, fun j hj heq => h ?_⟩
  rw [List.getElem_append_left hj] at heq
  exact heq ▸ List.getElem_mem hj

theorem eq_append_of_idxOf? {line : Bytes} {byte : UInt8} {separator : ℕ}
    (h : line.idxOf? byte = some separator) :
    line = line.take separator ++ byte :: line.drop (separator + 1) := by
  obtain ⟨hlt, hbyte, -⟩ := List.idxOf?_eq_some_iff.1 h
  rw [← hbyte, ← List.drop_eq_getElem_cons hlt, List.take_append_drop]

/-- The state of the loop behind some entries. -/
def configScan (entries : List ConfigEntry) : ConfigScan :=
  ⟨configValues entries, entries.getLast?.map fun entry => entry.1.bytes, entries.length⟩

namespace ConfigSorted

variable {entries : List ConfigEntry} {entry : ConfigEntry}

/-- Only the last key is compared with the next one. -/
theorem append_singleton_iff (h : ConfigSorted entries) :
    ConfigSorted (entries ++ [entry]) ↔
      ∀ last, entries.getLast? = some last → last.1.bytes < entry.1.bytes := by
  unfold ConfigSorted at h ⊢
  rw [List.pairwise_append]
  constructor
  · rintro ⟨-, -, hlater⟩ last hlast
    exact hlater last (List.mem_of_getLast? hlast) entry List.mem_cons_self
  · intro hlast
    refine ⟨h, List.pairwise_singleton .., fun a ha b hb => ?_⟩
    obtain rfl := List.mem_singleton.1 hb
    rcases List.eq_nil_or_concat' entries with rfl | ⟨front, last, rfl⟩
    · cases ha
    have hlt := hlast last (by simp)
    rcases List.mem_append.1 ha with hfront | hsingle
    · exact List.lt_trans ((List.pairwise_append.1 h).2.2 a hfront last List.mem_cons_self) hlt
    · rw [List.mem_singleton.1 hsingle]
      exact hlt

/-- A key that comes later has no value yet. -/
theorem configValues_eq_none (h : ConfigSorted (entries ++ [entry])) :
    configValues entries entry.1 = none := by
  unfold configValues
  rw [Option.map_eq_none_iff, List.find?_eq_none]
  intro other hother hkey
  have hlt := (List.pairwise_append.1 h).2.2 other hother entry List.mem_cons_self
  rw [of_decide_eq_true hkey] at hlt
  exact List.lt_irrefl _ hlt

theorem configScan_append (h : ConfigSorted (entries ++ [entry])) :
    configScan (entries ++ [entry]) =
      ⟨Function.update (configValues entries) entry.1 (some entry.2), some entry.1.bytes,
        entries.length + 1⟩ := by
  have hvalues : configValues (entries ++ [entry]) =
      Function.update (configValues entries) entry.1 (some entry.2) := by
    funext key
    have hnone := h.configValues_eq_none
    unfold configValues at hnone ⊢
    rw [List.find?_append, Function.update_apply]
    split
    · rename_i hkey
      rw [hkey, Option.map_eq_none_iff.1 hnone]
      simp
    · rename_i hkey
      have hother : ¬entry.1 = key := fun heq => hkey heq.symm
      simp [hother]
  rw [configScan, hvalues]
  simp

theorem nodup (h : ConfigSorted entries) : (entries.map Prod.fst).Nodup := by
  refine List.pairwise_map.2 (List.Pairwise.imp (fun {a b} hlt heq => ?_) h)
  rw [heq] at hlt
  exact List.lt_irrefl _ hlt

/-- There are fewer entries than the loop counts to. -/
theorem length_le (h : ConfigSorted entries) : entries.length ≤ 26 := by
  have hsubset : entries.map Prod.fst ⊆ LibraryConfigKey.all := fun key _ => key.mem_all
  have hlength := (List.subperm_of_subset h.nodup hsubset).length_le
  rwa [List.length_map] at hlength

theorem configValues_eq_some (h : ConfigSorted entries) {key : LibraryConfigKey} {value : Bytes} :
    configValues entries key = some value ↔ (key, value) ∈ entries := by
  unfold configValues
  rw [Option.map_eq_some_iff]
  constructor
  · rintro ⟨found, hfind, rfl⟩
    have hkey : found.1 = key := by simpa using List.find?_some hfind
    rw [← hkey]
    exact List.mem_of_find?_eq_some hfind
  · intro hmem
    cases hfind : entries.find? fun entry => entry.1 = key with
    | none =>
      have hmissing := List.find?_eq_none.1 hfind (key, value) hmem
      simp at hmissing
    | some found =>
      have hkey : found.1 = key := by simpa using List.find?_some hfind
      have hsame := List.inj_on_of_nodup_map h.nodup (List.mem_of_find?_eq_some hfind) hmem hkey
      exact ⟨found, rfl, by rw [hsame]⟩

/-- **The values of entries in order give the entries back.** -/
theorem filterMap_configValues (h : ConfigSorted entries) :
    (LibraryConfigKey.all.filterMap fun key =>
      (configValues entries key).map fun value => (key, value)) = entries := by
  have hirrefl : Std.Irrefl fun a b : ConfigEntry => a.1.bytes < b.1.bytes :=
    ⟨fun a => List.lt_irrefl a.1.bytes⟩
  have hantisymm : Std.Antisymm fun a b : ConfigEntry => a.1.bytes < b.1.bytes :=
    ⟨fun a b hab hba => absurd (List.lt_trans hab hba) (List.lt_irrefl _)⟩
  have hfiltered : (LibraryConfigKey.all.filterMap fun key =>
      (configValues entries key).map fun value => (key, value)).Pairwise
        fun a b : ConfigEntry => a.1.bytes < b.1.bytes := by
    refine List.pairwise_filterMap.2 (LibraryConfigKey.all_sorted.imp ?_)
    intro a b hlt x hx y hy
    obtain ⟨v, -, rfl⟩ := Option.map_eq_some_iff.1 hx
    obtain ⟨v', -, rfl⟩ := Option.map_eq_some_iff.1 hy
    exact hlt
  refine List.Pairwise.eq_of_mem_iff hfiltered h fun entry => ?_
  rw [List.mem_filterMap]
  constructor
  · rintro ⟨key, -, hentry⟩
    obtain ⟨value, hvalue, rfl⟩ := Option.map_eq_some_iff.1 hentry
    exact h.configValues_eq_some.1 hvalue
  · intro hmem
    refine ⟨entry.1, entry.1.mem_all, ?_⟩
    rw [h.configValues_eq_some.2 hmem]
    rfl

end ConfigSorted

/-- **One line is one more entry**: behind entries in order, a line is taken
exactly if it is that of an entry whose key comes later. -/
theorem parseConfigLine_eq_ok {entries : List ConfigEntry} {line : Bytes} {scan : ConfigScan}
    (hsorted : ConfigSorted entries) :
    parseConfigLine (configScan entries) line = .ok scan ↔
      ∃ entry, line = configLine entry ∧ ConfigLineOk entry ∧ ConfigSorted (entries ++ [entry]) ∧
        scan = configScan (entries ++ [entry]) := by
  have hprevious : ∀ entry : ConfigEntry, ConfigSorted (entries ++ [entry]) ↔
      ¬(configScan entries).previous.any (fun last => !(last < entry.1.bytes)) = true := by
    intro entry
    rw [hsorted.append_singleton_iff, configScan]
    cases entries.getLast? with
    | none => simp
    | some last => simp
  unfold parseConfigLine
  constructor
  · intro h
    obtain ⟨hline, h⟩ := refusal_eq_ok.1 h
    split at h
    · cases h
    rename_i separator hseparator
    obtain ⟨hvalue, h⟩ := refusal_eq_ok.1 h
    split at h
    · cases h
    rename_i key hkey
    obtain ⟨-, h⟩ := refusal_eq_ok.1 h
    have hkeyBytes := LibraryConfigKey.parse_eq_some.1 hkey
    have hentry : line = configLine (key, line.drop (separator + 1)) := by
      conv_lhs => rw [eq_append_of_idxOf? hseparator, hkeyBytes]
      rfl
    rw [hkeyBytes] at hvalue h
    simp only [not_or, not_not] at hline hvalue
    have hlater := (hprevious (key, line.drop (separator + 1))).2 hvalue.2
    refine ⟨(key, line.drop (separator + 1)), hentry, ⟨hentry ▸ hline.2.1, ?_, hvalue.1⟩,
      hlater, ?_⟩
    · rw [← hentry]
      simpa using hline.2.2
    · rw [hlater.configScan_append]
      exact (Except.ok.inj h).symm
  · rintro ⟨entry, rfl, hok, hlater, rfl⟩
    have hcount := hlater.length_le
    rw [List.length_append, List.length_singleton] at hcount
    have hplain : (configLine entry).any isControlByte = false := by
      simpa using hok.plain
    have hseparator : (configLine entry).idxOf? 0x3d = some entry.1.bytes.length :=
      idxOf?_append_cons entry.1.bytes_plain.1
    have htake : (configLine entry).take entry.1.bytes.length = entry.1.bytes := by
      rw [configLine, List.take_left]
    have hdrop : (configLine entry).drop (entry.1.bytes.length + 1) = entry.2 := by
      rw [configLine, ← List.drop_drop, List.drop_left]
      rfl
    rw [if_neg, hseparator]
    · simp only [htake, hdrop]
      rw [if_neg, LibraryConfigKey.parse_eq_some.2 rfl]
      · have hfree : ¬((configScan entries).values entry.1).isSome = true := by
          have hnone : (configScan entries).values entry.1 = none := hlater.configValues_eq_none
          rw [hnone]
          exact Bool.false_ne_true
        simp only
        rw [if_neg hfree, hlater.configScan_append]
        rfl
      · rintro (hempty | hany)
        · exact hok.value hempty
        · exact (hprevious entry).1 hlater hany
    · rw [hplain]
      have hlength := hok.length
      rintro (hlong | hrange | hcontrol)
      · simp only [configScan] at hlong
        omega
      · exact hrange hlength
      · cases hcontrol

/-! ## All lines -/

/-- **Lines are entries in order.** -/
theorem foldlM_parseConfigLine {done : List ConfigEntry} {lines : List Bytes} {scan : ConfigScan}
    (hsorted : ConfigSorted done) :
    lines.foldlM parseConfigLine (configScan done) = .ok scan ↔
      ∃ entries, lines = entries.map configLine ∧ (∀ entry ∈ entries, ConfigLineOk entry) ∧
        ConfigSorted (done ++ entries) ∧ scan = configScan (done ++ entries) := by
  induction lines generalizing done scan with
  | nil =>
    constructor
    · intro h
      cases h
      exact ⟨[], rfl, fun _ h => absurd h List.not_mem_nil, by rwa [List.append_nil],
        by rw [List.append_nil]⟩
    · rintro ⟨entries, hlines, -, -, rfl⟩
      obtain rfl := List.map_eq_nil_iff.1 hlines.symm
      rw [List.append_nil]
      rfl
  | cons line lines ih =>
    rw [List.foldlM_cons, exceptBind_eq_ok]
    constructor
    · rintro ⟨next, hline, hrest⟩
      obtain ⟨entry, rfl, hok, hnext, rfl⟩ := (parseConfigLine_eq_ok hsorted).1 hline
      obtain ⟨entries, rfl, hentries, hall, rfl⟩ := (ih hnext).1 hrest
      rw [List.append_assoc] at hall
      exact ⟨entry :: entries, rfl, List.forall_mem_cons.2 ⟨hok, hentries⟩, hall,
        by rw [List.append_assoc]; rfl⟩
    · rintro ⟨entries, hlines, hentries, hall, rfl⟩
      cases entries with
      | nil => cases hlines
      | cons entry entries =>
        obtain ⟨rfl, rfl⟩ := List.cons.inj hlines
        obtain ⟨hok, hentries⟩ := List.forall_mem_cons.1 hentries
        have hassoc : done ++ entry :: entries = (done ++ [entry]) ++ entries := by simp
        rw [hassoc] at hall
        rw [hassoc]
        have hnext : ConfigSorted (done ++ [entry]) := (List.pairwise_append.1 hall).1
        exact ⟨configScan (done ++ [entry]),
          (parseConfigLine_eq_ok hsorted).2 ⟨entry, rfl, hok, hnext, rfl⟩,
          (ih hnext).2 ⟨entries, rfl, hentries, hall, rfl⟩⟩

/-- Lines that end with a newline each, as lines with newlines between them. -/
theorem intercalate_append_newline {lines : List Bytes} (h : lines ≠ []) :
    [0x0a].intercalate lines ++ [0x0a] = lines.flatMap fun line => line ++ [0x0a] := by
  induction lines with
  | nil => exact absurd rfl h
  | cons line lines ih =>
    cases lines with
    | nil => simp [List.intercalate]
    | cons next lines =>
      rw [List.flatMap_cons, ← ih (List.cons_ne_nil _ _)]
      simp [List.intercalate]

theorem configLines_eq (entries : List ConfigEntry) :
    configLines entries = (entries.map configLine).flatMap fun line => line ++ [0x0a] := by
  rw [configLines, List.flatMap_map]

theorem not_mem_configLines {entries : List ConfigEntry} {byte : UInt8}
    (hok : ∀ entry ∈ entries, ConfigLineOk entry) (hcontrol : isControlByte byte = true)
    (hnewline : byte ≠ 0x0a) : byte ∉ configLines entries := by
  intro hmem
  obtain ⟨entry, hentry, hbyte⟩ := List.mem_flatMap.1 hmem
  rcases List.mem_append.1 hbyte with hline | hend
  · have hplain := (hok entry hentry).plain byte hline
    rw [hcontrol] at hplain
    cases hplain
  · exact hnewline (List.mem_singleton.1 hend)

/-- **What the parser accepts and what it makes of it.** -/
theorem LibraryConfigDocument.parse_eq_ok {bytes : Bytes} {document : LibraryConfigDocument} :
    LibraryConfigDocument.parse bytes = .ok document ↔
      bytes.length ≤ 16384 ∧ ∃ entries, bytes = libraryConfigHeader ++ configLines entries ∧
        (∀ entry ∈ entries, ConfigLineOk entry) ∧ ConfigSorted entries ∧
        document = ⟨configValues entries⟩ := by
  have hempty : (⟨fun _ => none, none, 0⟩ : ConfigScan) = configScan [] := rfl
  have hstart : ConfigSorted [] := List.Pairwise.nil
  unfold LibraryConfigDocument.parse
  constructor
  · intro h
    obtain ⟨hshape, h⟩ := refusal_eq_ok.1 h
    simp only [not_or, not_not] at hshape
    obtain ⟨hlength, ⟨body, rfl⟩, hend, -⟩ := hshape
    rw [List.drop_left] at h
    refine ⟨Nat.not_lt.1 hlength, ?_⟩
    obtain ⟨hlines, h⟩ := refusal_eq_ok.1 h
    split at h
    · rename_i hnone
      obtain rfl : body = [] := not_not.1 fun hne => hlines ⟨hnone, hne⟩
      cases h
      exact ⟨[], rfl, fun _ h => absurd h List.not_mem_nil, hstart, rfl⟩
    · rename_i hsome
      obtain ⟨scan, hscan, hdocument⟩ := exceptBind_eq_ok.1 h
      rw [hempty, foldlM_parseConfigLine hstart] at hscan
      obtain ⟨entries, hentries, hok, hsorted, rfl⟩ := hscan
      rw [List.nil_append] at hsorted hdocument
      refine ⟨entries, ?_, hok, hsorted, (Except.ok.inj hdocument).symm⟩
      -- The last byte of the document is the newline that was cut off.
      have hbody : body ≠ [] := by
        rintro rfl
        exact hsome rfl
      have hlast : body.getLast hbody = 0x0a := by
        obtain ⟨front, hfront⟩ := hend
        have hlasts := congrArg List.getLast? hfront
        rw [List.getLast?_append_of_ne_nil _ hbody, List.getLast?_concat,
          List.getLast?_eq_some_getLast hbody] at hlasts
        exact (Option.some.inj hlasts).symm
      rw [configLines_eq, ← hentries,
        ← intercalate_append_newline (List.splitOn_ne_nil _ _), List.intercalate_splitOn, ← hlast,
        List.dropLast_append_getLast]
  · rintro ⟨hlength, entries, rfl, hok, hsorted, rfl⟩
    have hheader : (0 : UInt8) ∉ libraryConfigHeader ∧ (0x0d : UInt8) ∉ libraryConfigHeader ∧
        [0x0a] <:+ libraryConfigHeader := by decide +kernel
    have hzero := not_mem_configLines hok (rfl : isControlByte 0 = true) (by decide)
    have hreturn := not_mem_configLines hok (rfl : isControlByte 0x0d = true) (by decide)
    have hend : [0x0a] <:+ libraryConfigHeader ++ configLines entries := by
      rcases List.eq_nil_or_concat' entries with rfl | ⟨front, last, rfl⟩
      · simpa [configLines] using hheader.2.2
      · refine ⟨libraryConfigHeader ++ (configLines front ++ configLine last), ?_⟩
        simp [configLines]
    rw [if_neg, List.drop_left]
    · cases entries with
      | nil => rfl
      | cons entry rest =>
        have hne : (entry :: rest).map configLine ≠ [] := List.cons_ne_nil _ _
        have hlines : (configLines (entry :: rest)).dropLast =
            [0x0a].intercalate ((entry :: rest).map configLine) := by
          rw [configLines_eq, ← intercalate_append_newline hne, List.dropLast_concat]
        have hplain : ∀ line ∈ (entry :: rest).map configLine, (0x0a : UInt8) ∉ line := by
          intro line hline hmem
          obtain ⟨entry', hentry', rfl⟩ := List.mem_map.1 hline
          have hcontrol := (hok entry' hentry').plain _ hmem
          cases hcontrol
        have hnonempty : (configLines (entry :: rest)).dropLast ≠ [] := by
          intro hnil
          have hlong := (hok entry List.mem_cons_self).length.1
          have hcut := congrArg List.length hnil
          rw [List.length_dropLast, configLines, List.flatMap_cons, List.length_append,
            List.length_append, List.length_singleton, List.length_nil] at hcut
          omega
        simp only
        rw [if_neg (fun h => hnonempty h.1), if_neg hnonempty, hlines,
          List.splitOn_intercalate _ hplain hne, hempty,
          (foldlM_parseConfigLine hstart).2 ⟨entry :: rest, rfl, hok, hsorted, rfl⟩]
        rfl
    · rintro (hlong | hprefix | hsuffix | hmem | hmem)
      · exact absurd hlong (Nat.not_lt.2 hlength)
      · exact hprefix (List.prefix_append _ _)
      · exact hsuffix hend
      · exact (List.mem_append.1 hmem).elim hheader.1 hzero
      · exact (List.mem_append.1 hmem).elim hheader.2.1 hreturn

theorem LibraryConfigDocument.render_of_parse {bytes : Bytes} {document : LibraryConfigDocument}
    (h : LibraryConfigDocument.parse bytes = .ok document) : document.render = bytes := by
  obtain ⟨-, entries, rfl, -, hsorted, rfl⟩ := LibraryConfigDocument.parse_eq_ok.1 h
  rw [LibraryConfigDocument.render, hsorted.filterMap_configValues]

/-- **The parser is exact.** It accepts a document of at most 16384 bytes that
is the header and lines `key=value` of 3 to 2048 bytes without control bytes,
with known keys in byte order and values that are not empty, and no other;
what it accepts is what its values are written back as, so that different
documents have different contents. -/
theorem libraryConfig_parse_exact (bytes : Bytes) :
    ((∃ document, LibraryConfigDocument.parse bytes = .ok document) ↔
      bytes.length ≤ 16384 ∧ ∃ lines : List Bytes,
        bytes = libraryConfigHeader ++ lines.flatMap (fun line => line ++ [0x0a]) ∧
        (∀ line ∈ lines, 3 ≤ line.length ∧ line.length ≤ 2048 ∧
          ∀ byte ∈ line, isControlByte byte = false) ∧
        ∃ entries : List (LibraryConfigKey × Bytes),
          lines = entries.map (fun entry => entry.1.bytes ++ 0x3d :: entry.2) ∧
          (∀ entry ∈ entries, entry.2 ≠ []) ∧
          (entries.map fun entry => entry.1.bytes).Pairwise (· < ·)) ∧
    (∀ document, LibraryConfigDocument.parse bytes = .ok document → document.render = bytes) ∧
    ∀ bytes' document, LibraryConfigDocument.parse bytes = .ok document →
      LibraryConfigDocument.parse bytes' = .ok document → bytes = bytes' := by
  refine ⟨?_, fun document h => document.render_of_parse h, fun bytes' document h h' => ?_⟩
  · constructor
    · rintro ⟨document, h⟩
      obtain ⟨hlength, entries, hbytes, hok, hsorted, -⟩ := LibraryConfigDocument.parse_eq_ok.1 h
      refine ⟨hlength, entries.map configLine, ?_, fun line hline => ?_, entries, rfl,
        fun entry hentry => (hok entry hentry).value, List.pairwise_map.2 hsorted⟩
      · rw [hbytes, configLines_eq]
      · obtain ⟨entry, hentry, rfl⟩ := List.mem_map.1 hline
        exact ⟨(hok entry hentry).length.1, (hok entry hentry).length.2, (hok entry hentry).plain⟩
    · rintro ⟨hlength, lines, hbytes, hlines, entries, rfl, hvalues, hsorted⟩
      refine ⟨⟨configValues entries⟩, LibraryConfigDocument.parse_eq_ok.2 ⟨hlength, entries, ?_,
        fun entry hentry => ?_, List.pairwise_map.1 hsorted, rfl⟩⟩
      · rw [hbytes, configLines_eq]
        rfl
      · obtain ⟨hlow, hhigh, hplain⟩ := hlines _ (List.mem_map_of_mem hentry)
        exact ⟨⟨hlow, hhigh⟩, hplain, hvalues entry hentry⟩
  · rw [← document.render_of_parse h, document.render_of_parse h']

/-- The settings `MENGXIA_DB_READ_CONNECTIONS=4` and `MENGXIA_LOG_LEVEL=info`. -/
def twoSettings : List ConfigEntry :=
  [(.dbReadConnections, [0x34]), (.logLevel, [0x69, 0x6e, 0x66, 0x6f])]

/-- Two settings are read back in the order of their keys, and refused in the
other. -/
theorem twoSettings_read_back :
    (∃ document, LibraryConfigDocument.parse (libraryConfigHeader ++ configLines twoSettings) =
        .ok document ∧ document.render = libraryConfigHeader ++ configLines twoSettings) ∧
      ¬ ∃ document, LibraryConfigDocument.parse
        (libraryConfigHeader ++ configLines twoSettings.reverse) = .ok document := by
  have hexact := libraryConfig_parse_exact (libraryConfigHeader ++ configLines twoSettings)
  obtain ⟨document, hdocument⟩ := hexact.1.2 ⟨by decide +kernel, twoSettings.map configLine, rfl,
    by decide +kernel, twoSettings, rfl, by decide, by decide +kernel⟩
  refine ⟨⟨document, hdocument, hexact.2.1 document hdocument⟩, ?_⟩
  rintro ⟨other, hother⟩
  have hrefused : (LibraryConfigDocument.parse
      (libraryConfigHeader ++ configLines twoSettings.reverse)).isOk = false := by decide +kernel
  rw [hother] at hrefused
  cases hrefused

end MengXia
