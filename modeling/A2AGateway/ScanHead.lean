import A2AGateway.Runs

/-!
# When a scan moves the head

As shipped a scan returns no snapshot: it fails at its first statement, as no project can be read. With the columns of
a project decoded `scan_and_snapshot` looks for a row with the new snapshot's id first and returns that row if there is
one ("no-op if identical", `file_sync.rs:92`). Ids are hashes of transcripts, so the row may be an older snapshot of
the project, or another project's: it is returned all the same, and the head stays where it is.
-/

namespace A2AGateway

open FileSync

variable [Sha256]

/-- The scan of `p` that began in `w`, ended in `w'` and returned `s` made the head of `p` reflect
the folder. -/
structure ReflectsFolder (w : World) (p : String) (s : Snapshot) (w' : World) : Prop where
  project : s.projectId = p
  transcript : folderTranscript w p = some s.transcript
  head : ((head p).exec w'.calm).1 = .ok (some s)

/-- The snapshot of the folder has a row of its own yet to come, or it is the head of `p` already. -/
def NewOrHead (w : World) (p : String) : Prop :=
  ∀ t, folderTranscript w p = some t →
    (∀ r ∈ w.db.snapshots.rows, r.id ≠ transcriptId t) ∨
      headRow w.db p = some (transcriptId t) ∧
        ∃ r ∈ w.db.snapshots.rows, r.id = transcriptId t ∧ r.projectId = p ∧ r.transcript = t

/-- A scan makes the head reflect the folder exactly if the snapshot is new or is the head already. -/
theorem reflectsFolder_iff {gateway p : String} {w w' : World} {s : Snapshot}
    (h : (scanAndSnapshot gateway p).exec w = (.ok (some s), w')) :
    ReflectsFolder w p s w' ↔ NewOrHead w p := by
  obtain ⟨t, w₁, ht, ⟨hdb, -⟩, hrec⟩ := exec_scanAndSnapshot_ok h
  have hsnap : ∀ id, snapshotRow w₁.db id = snapshotRow w.db id := fun id => by rw [hdb]; rfl
  have hhead : headRow w₁.db p = headRow w.db p := by rw [hdb]; rfl
  have hcalm : ((head p).exec w'.calm).1 = .ok (headOf w'.db p) := by
    rw [exec_head_calm rfl]
    rfl
  rcases exec_recordScan_ok hrec with ⟨hrow, hdb'⟩ | ⟨hrow, hs, db, hins, hup⟩
  · -- The row `s` was there: nothing has been written.
    rw [hsnap] at hrow
    obtain ⟨hmem, hid⟩ := snapshotRow_eq_some.1 hrow
    constructor
    · rintro ⟨hp, htr, hh⟩ t' ht'
      rw [ht] at ht'
      cases ht'
      rw [ht] at htr
      rw [hcalm, hdb'] at hh
      injection hh with hh
      rw [headOf_eq_some, hhead, hid] at hh
      cases htr
      exact Or.inr ⟨hh.1, s, hmem, hid, hp, rfl⟩
    · intro hn
      rcases hn t ht with hnone | ⟨hh, r, hr, hrid, hrp, hrt⟩
      · exact absurd hid (hnone s hmem)
      · have hrs : r = s := by
          have hr' := snapshotRow_eq_some.2 ⟨hr, hrid⟩
          rw [hrow] at hr'
          injection hr' with hr'
          exact hr'.symm
        subst hrs
        refine ⟨hrp, by rw [ht, hrt], ?_⟩
        rw [hcalm, hdb', headOf_eq_some.2 ⟨by rw [hhead, hh, hid], by rw [hsnap, hid, hrow]⟩]
  · -- The row is new: it has been written and the head advanced.
    subst hs
    rw [hsnap, snapshotRow_eq_none] at hrow
    constructor
    · intro _ t' ht'
      rw [ht] at ht'
      cases ht'
      exact Or.inl hrow
    · intro _
      refine ⟨rfl, ht, ?_⟩
      have hfound := (snapshotRow_insertSnapshot hins).1
      have hsnaps : w'.db.snapshots = db.snapshots := by rw [upsertHead_frame hup]
      rw [hcalm, headOf_eq_some.2 ⟨?_, ?_⟩]
      · rw [headRow_upsertHead hup, if_pos rfl]
      · rw [← hfound]
        simp only [snapshotRow, hsnaps]

/-- **As shipped every scan fails and changes nothing. With any decoding a scan that returns a snapshot makes the head
reflect the folder exactly if the snapshot is new or is the head already.** -/
theorem scan_reflectsFolder (gateway p : String) (w : World) :
    (w.AsShipped → ∃ e, (scanAndSnapshot gateway p).exec w = (.error e, w.tick)) ∧
    ∀ s w', (scanAndSnapshot gateway p).exec w = (.ok (some s), w') → (ReflectsFolder w p s w' ↔ NewOrHead w p) :=
  ⟨fun h => exec_scanAndSnapshot_refused h gateway p, fun _ _ => reflectsFolder_iff⟩

/-! ## A folder that goes back -/

section demo

/-- Two scans, the folder changed in between; then the folder changes back. -/
def demoBack : List Event :=
  demoSetup ++ [.call (.scan demoId.text), demoFolder "2" 200 1001, .call (.scan demoId.text),
    demoFolder "1" 100 1002]

def demoFirst : Snapshot :=
  ⟨demoSnapshot₁, demoId.text, "gw-a",
   "F|a.txt|6b86b273ff34fce19d6b804eff5a3f5747ada4eaa22f1d49c01e52ddb7875b4b|1|644|100", .fin 1000⟩

omit [Sha256] in
/-- As shipped the first scan of a new project fails. With the columns decoded it reflects the folder. -/
theorem scan_reflectsFolder_demo : letI := demoSha256; letI := HmacSha256.recorded []
    (∃ e, (scanAndSnapshot "gw-a" demoId.text).exec (replay demoGateway demoSetup) =
      (.error e, (replay demoGateway demoSetup).tick)) ∧
    ∃ w w' s, ReflectsFolder w demoId.text s w' := by
  let := demoSha256
  let := HmacSha256.recorded []
  refine ⟨(scan_reflectsFolder _ _ _).1 (by decide +kernel), ?_⟩
  let w := replay demoGateway demoSetup .widening
  have hr : ((scanAndSnapshot "gw-a" demoId.text).exec w).1 = .ok (some demoFirst) := by decide +kernel
  have hempty : w.db.snapshots.rows = [] := List.length_eq_zero_iff.1 demo_set_up.2.2
  refine ⟨w, _, demoFirst, ((scan_reflectsFolder _ _ _).2 _ _ (Prog.exec_eq_of_fst hr)).2 fun t _ => Or.inl ?_⟩
  intro r hmem
  rw [hempty] at hmem
  cases hmem

-- With the columns decoded, when the folder goes back to its first contents the scan returns the first snapshot, and
-- the head stays at the second.
omit [Sha256] in
example : letI := demoSha256; letI := HmacSha256.recorded []
    ((scanAndSnapshot demoGateway.name demoId.text).exec (replay demoGateway demoBack .widening)).1 = .ok (some demoFirst) ∧
      ((head demoId.text).exec ((scanAndSnapshot demoGateway.name demoId.text).exec
        (replay demoGateway demoBack .widening)).2.calm).1 ≠ .ok (some demoFirst) := by
  decide +kernel

end demo

end A2AGateway
