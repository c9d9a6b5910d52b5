import RustScript.Progress.Basic
import RustScript.Proofs.Entries

/-!
# What records can be relied on for

Records that say of each stage what became of it can be relied on: the latest record of a stage is
the one that began last, and the timings are those of the stages that were timed and are over, where
again the one that began last counts (`reliable_of_tells`).
-/

set_option autoImplicit false

namespace RustScript.Progress

/-- The record is that of a stage that was timed and is over. -/
def Record.IsTimed (record : Record) : Prop := record.finished = true ∧ record.status ≠ .skipped

/-- The record is the last one of its stage that is of some kind. -/
def IsLast (kind : Record → Prop) (records : List Record) (record : Record) : Prop :=
  ∃ before after, records = before ++ record :: after ∧ kind record ∧
    ∀ later ∈ after, later.stage = record.stage → ¬ kind later

/-- The records can be relied on. -/
structure Reliable (records : List Record) : Prop where
  /-- A stage that was left out took no time. -/
  untimed : ∀ record ∈ records, record.status = .skipped → record.elapsed = none
  /-- The latest record of a stage is the one that began last. -/
  latest : ∀ stage record, latest? records stage = some record ↔
    record.stage = stage ∧ IsLast (fun _ => True) records record
  /-- The timings are those of the stages that were timed and are over. -/
  timed : ∀ stage, (timings records).has stage = true ↔
    ∃ record ∈ records, record.stage = stage ∧ record.IsTimed
  /-- The one that began last counts. -/
  timings : ∀ stage seconds, (timings records).get? stage = some seconds ↔
    ∃ record, record.stage = stage ∧ IsLast Record.IsTimed records record ∧
      record.elapsed = some seconds

/-- What is found first from the end of the records. -/
theorem find?_reverse_eq_some_iff {records : List Record} {stage : String} {kind : Record → Prop}
    {found : Record → Bool}
    (hfound : ∀ record ∈ records, found record = true ↔ record.stage = stage ∧ kind record)
    (record : Record) :
    records.reverse.find? found = some record ↔
      record.stage = stage ∧ IsLast kind records record := by
  rw [List.find?_eq_some_iff_append]
  constructor
  · rintro ⟨hrecord, after, before, hsplit, hnone⟩
    have hrecords : records = before.reverse ++ record :: after.reverse := by
      rw [← List.reverse_reverse records, hsplit]
      simp
    have hmem : record ∈ records := by rw [hrecords]; simp
    obtain ⟨hstage, hkind⟩ := (hfound record hmem).mp hrecord
    refine ⟨hstage, before.reverse, after.reverse, hrecords, hkind, ?_⟩
    intro later hlater hsame hlaterKind
    have hlaterMem : later ∈ records := by rw [hrecords]; simp [List.mem_reverse.mp hlater]
    have hno := hnone later (List.mem_reverse.mp hlater)
    rw [(hfound later hlaterMem).mpr ⟨hsame.trans hstage, hlaterKind⟩] at hno
    cases hno
  · rintro ⟨hstage, before, after, hrecords, hkind, hlast⟩
    have hmem : record ∈ records := by rw [hrecords]; simp
    refine ⟨(hfound record hmem).mpr ⟨hstage, hkind⟩, after.reverse, before.reverse, ?_, ?_⟩
    · rw [hrecords]
      simp
    · intro later hlater
      have hlaterMem : later ∈ records := by rw [hrecords]; simp [List.mem_reverse.mp hlater]
      rw [Bool.not_eq_true', Bool.eq_false_iff]
      intro hyes
      obtain ⟨hsame, hlaterKind⟩ := (hfound later hlaterMem).mp hyes
      exact hlast later (List.mem_reverse.mp hlater) (hsame.trans hstage.symm) hlaterKind

theorem latest?_eq_some_iff (records : List Record) (stage : String) (record : Record) :
    latest? records stage = some record ↔
      record.stage = stage ∧ IsLast (fun _ => True) records record := by
  unfold latest?
  apply find?_reverse_eq_some_iff
  simp

/-- What a record adds to the timings. -/
def Record.timing? (record : Record) : Option (String × Binary64) :=
  if record.finished then record.elapsed.map fun elapsed => (record.stage, elapsed) else none

theorem get?_timings (records : List Record) (stage : String) :
    (timings records).get? stage = ((records.reverse.find? fun record =>
      record.timing?.any fun entry => entry.1 == stage).bind Record.timing?).map Prod.snd := by
  have htimings : timings records = Entries.putAll [] (records.filterMap Record.timing?) := rfl
  rw [htimings, Entries.get?_putAll]
  unfold Entries.last?
  rw [← List.filterMap_reverse, List.find?_filterMap]
  show (Option.map _ _).or none = _
  rw [Option.or_none]

/-- The record says what became of its stage: a stage that was timed and is over has a time, one that
was left out has none. -/
def Record.Tells (record : Record) : Prop :=
  record.finished = true → (record.elapsed.isSome = true ↔ record.status ≠ .skipped)

theorem Record.Tells.timing?_iff {record : Record} (h : record.Tells) (stage : String) :
    (record.timing?.any fun entry => entry.1 == stage) = true ↔
      record.stage = stage ∧ record.IsTimed := by
  unfold Record.timing? Record.IsTimed
  by_cases hfinished : record.finished = true
  · have htimed := h hfinished
    rw [if_pos hfinished, ← htimed]
    cases record.elapsed <;> simp [hfinished]
  · simp [hfinished]

/-- Records that say what became of their stages can be relied on. -/
theorem reliable_of_tells {records : List Record} (h : ∀ record ∈ records, record.Tells) :
    Reliable records := by
  have hfind : ∀ stage record, (records.reverse.find? fun record =>
      record.timing?.any fun entry => entry.1 == stage) = some record ↔
        record.stage = stage ∧ IsLast Record.IsTimed records record := fun stage =>
    find?_reverse_eq_some_iff fun record hrecord => (h record hrecord).timing?_iff stage
  have hget : ∀ stage seconds, (timings records).get? stage = some seconds ↔
      ∃ record, record.stage = stage ∧ IsLast Record.IsTimed records record ∧
        record.elapsed = some seconds := by
    intro stage seconds
    rw [get?_timings, Option.map_eq_some_iff]
    constructor
    · rintro ⟨entry, hentry, rfl⟩
      obtain ⟨record, hrecord, htiming⟩ := Option.bind_eq_some_iff.mp hentry
      obtain ⟨hstage, hlast⟩ := (hfind stage record).mp hrecord
      refine ⟨record, hstage, hlast, ?_⟩
      unfold Record.timing? at htiming
      split at htiming
      · obtain ⟨elapsed, helapsed, rfl⟩ := Option.map_eq_some_iff.mp htiming
        exact helapsed
      · cases htiming
    · rintro ⟨record, hstage, hlast, helapsed⟩
      refine ⟨(record.stage, seconds), ?_, rfl⟩
      rw [(hfind stage record).mpr ⟨hstage, hlast⟩]
      obtain ⟨before, after, hrecords, htimed, hlater⟩ := hlast
      show record.timing? = some _
      unfold Record.timing?
      rw [if_pos htimed.1, helapsed]
      rfl
  refine ⟨?_, latest?_eq_some_iff records, ?_, hget⟩
  · intro record hrecord hskipped
    have htells := h record hrecord (by simp [Record.finished, hskipped])
    simpa [hskipped] using htells
  · intro stage
    have hhas : (timings records).has stage = ((timings records).get? stage).isSome := by
      unfold Entries.has Entries.get?
      rw [Option.isSome_map, List.isSome_find?]
    rw [hhas, get?_timings, Option.isSome_map]
    constructor
    · intro hsome
      obtain ⟨entry, hentry⟩ := Option.isSome_iff_exists.mp hsome
      obtain ⟨record, hrecord, -⟩ := Option.bind_eq_some_iff.mp hentry
      obtain ⟨hstage, before, after, hrecords, htimed, -⟩ := (hfind stage record).mp hrecord
      refine ⟨record, ?_, hstage, htimed⟩
      rw [hrecords]
      simp
    · rintro ⟨record, hrecord, hstage, htimed⟩
      have hsome : (records.reverse.find? fun record =>
          record.timing?.any fun entry => entry.1 == stage).isSome = true := by
        rw [List.find?_isSome]
        exact ⟨record, List.mem_reverse.mpr hrecord,
          ((h record hrecord).timing?_iff stage).mpr ⟨hstage, htimed⟩⟩
      obtain ⟨last, hlast⟩ := Option.isSome_iff_exists.mp hsome
      have hany := List.find?_some hlast
      rw [hlast]
      show last.timing?.isSome = true
      cases htiming : last.timing? with
      | none => simp [htiming] at hany
      | some entry => rfl

end RustScript.Progress
