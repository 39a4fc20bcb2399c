import MengXia.Store.History
/-!
# Locations between commits

Two commands store a location of a blob: a completed ingest of the same
content under another backend, and `record_location`. Only the second one
raises the revision of the blob. So the locations of a blob stay, or its
revision is raised, along every run in which no ingest adds a location of
it (`LaterQuiet`).
-/

namespace MengXia.Store

open Common

variable {allowed : Call → Prop}

variable {digest : Digest} {d d' : Database}

/-! ## The locations of one blob -/

/-- The locations of a blob are the same. -/
def LocationsKept (digest : Digest) (t t' : Tables) : Prop :=
  t'.locations.filter (fun l => l.blobDigest = digest) =
    t.locations.filter fun l => l.blobDigest = digest

/-- The revision of a blob has gone up. -/
def BlobRaised (digest : Digest) (t t' : Tables) : Prop :=
  ∀ b ∈ t.blobs, b.digest = digest → ∀ b' ∈ t'.blobs, b'.digest = digest → b.revision < b'.revision

/-- An ingest completion that stores a new location of the blob. -/
def AddsByIngest (t : Tables) (digest : Digest) : Call → Prop
  | .completeExternal request =>
    request.durableBlob.digest = digest ∧ locationAt t request.durableBlob = none
  | _ => False

/-- The databases that further calls lead to, none of which is an ingest
completion that stores a new location of the blob. -/
inductive LaterQuiet (allowed : Call → Prop) (digest : Digest) (d : Database) :
    Database → Prop where
  | refl : LaterQuiet allowed digest d d
  | step {d' : Database} (context : StoreContext) (call : Call)
      (later : LaterQuiet allowed digest d d') (admitted : allowed call)
      (quiet : ¬ AddsByIngest d' digest call) :
      LaterQuiet allowed digest d ((call.exec context).run d').2

theorem LaterQuiet.later (h : LaterQuiet allowed digest d d') :
    Later allowed d d' := by
  induction h with
  | refl => exact .refl
  | step context call _ admitted _ ih => exact .step context call ih admitted

theorem LocationsKept.concat {t t' : Tables} {l : LocationRow}
    (h : t'.locations = t.locations ++ [l]) (hl : l.blobDigest ≠ digest) :
    LocationsKept digest t t' := by
  unfold LocationsKept
  rw [h, List.filter_append, List.filter_cons_of_neg (by simpa using hl), List.filter_nil,
    List.append_nil]

/-! ## One call -/

/-- A change that adds a row to the ledger is no registration. -/
theorem Change.locations {row : CommandRow} (hchange : Change allowed d d')
    (hcommands : d'.commands = d.commands ++ [row]) :
    LocationsKept digest d d' ∨ BlobRaised digest d d' := by
  have hkeys := d'.consistent.blobKeys
  generalize d'.toTables = t' at hchange hcommands hkeys
  cases hchange with
  | registered =>
    have hlength := congrArg List.length hcommands
    simp [updateWhere] at hlength
  | locationRecorded context request blob fresh mem id available =>
    by_cases hdigest : request.durableBlob.digest = digest
    · refine Or.inr fun b hb hbd b' hb' hbd' => ?_
      obtain rfl := d.consistent.blobKeys.eq_of_mem hb mem (hbd.trans (hdigest.symm.trans id.symm))
      have hraised : { b with
          revision := b.revision + 1, verifiedAt := request.operationAt } ∈
            updateWhere (fun b => decide (b.digest = request.durableBlob.digest))
              (fun x => { x with
                revision := b.revision + 1, verifiedAt := request.operationAt }) d.blobs :=
        mem_updateWhere.2 ⟨b, hb, if_pos (by simp [id])⟩
      rw [hkeys.eq_of_mem hb' hraised (hbd'.trans hbd.symm)]
      exact Nat.lt_succ_self _
    · exact Or.inl (.concat rfl hdigest)
  | _ => exact Or.inl rfl

/-- **One call keeps the locations of a blob or raises its revision**,
unless it is an ingest completion that adds one. -/
theorem Call.locations (call : Call) (context : StoreContext) (d : Database)
    (hquiet : ¬ AddsByIngest d digest call) :
    LocationsKept digest d ((call.exec context).run d).2.toTables ∨
      BlobRaised digest d ((call.exec context).run d).2.toTables := by
  refine call.run_cases context d (P := fun t => LocationsKept digest d t ∨
    BlobRaised digest d t) (Or.inl rfl) ?_ ?_ fun d' hledger => ?_
  · intro pure outcome row d' _ hstep hcommands _
    rcases hstep.tables with hsame | hchange
    · rw [hsame]
      exact Or.inl rfl
    · exact hchange.locations hcommands
  · rintro request row d' result blobs locations location rfl - hregisters
    have hlocations : d'.locations = locations := by rw [hregisters.tables]
    refine Or.inl ?_
    rcases hregisters.persisted.locations with ⟨-, -, -, -, -, -, rfl⟩ | ⟨hnone, -, rfl⟩
    · unfold LocationsKept
      rw [hlocations]
    · exact .concat hlocations fun hdigest => hquiet ⟨hdigest, hnone⟩
  · rw [hledger.tables]
    exact Or.inl rfl

/-! ## Runs -/

/-- A later row of a blob has no smaller revision. -/
theorem Grows.blob (h : Grows d d') {b b' : BlobRow} (hb : b ∈ d.blobs)
    (hb' : b' ∈ d'.blobs) (hdigest : b'.digest = b.digest) : b.Next b' := by
  obtain ⟨x, hx, hnext⟩ := h.blobs b hb
  rwa [d'.consistent.blobKeys.eq_of_mem hb' hx (hdigest.trans hnext.digest.symm)]

/-- **The locations of a blob stay or its revision is raised**, along every
quiet run. -/
theorem LaterQuiet.locations (h : LaterQuiet allowed digest d d') :
    LocationsKept digest d d' ∨ BlobRaised digest d d' := by
  induction h with
  | refl => exact Or.inl rfl
  | @step d' context call later _ quiet ih =>
    have hgrows : Grows d' ((call.exec context).run d').2.toTables :=
      call.grows context d'
    rcases ih with hkept | hraised
    · rcases call.locations context d' quiet with hkept' | hraised'
      · exact Or.inl (Eq.trans hkept' hkept)
      · refine Or.inr fun b hb hbd b' hb' hbd' => ?_
        obtain ⟨x, hx, hnext⟩ := later.later.grows.blobs b hb
        exact hnext.revision.trans_lt (hraised' x hx (hnext.digest.trans hbd) b' hb' hbd')
    · refine Or.inr fun b hb hbd b' hb' hbd' => ?_
      obtain ⟨x, hx, hnext⟩ := later.later.grows.blobs b hb
      have hxd : x.digest = digest := hnext.digest.trans hbd
      exact (hraised b hb hbd x hx hxd).trans_le
        (hgrows.blob hx hb' (hbd'.trans hxd.symm)).revision

end MengXia.Store
