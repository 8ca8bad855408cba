import ElfUnwind.Image.Structure
import ElfUnwind.Proofs.AlikeMedia
import ElfUnwind.Proofs.Checks
import ElfUnwind.Source.Schedule

/-!
# Reads by plan

Which read a task makes next depends on what the reads before were served, and on nothing else. A
plan says which it is, and what is checked before it is made. A task that follows a plan makes the
reads in order until a check does not hold or a read fails, and then fails with that
(`Task.Follows`); tasks that follow one plan are put together like tasks.
-/

namespace ElfUnwind

/-- What reads were served, in order. -/
abbrev Served := List (List UInt8)

/-- A read that is planned. -/
structure PlannedRead where
  /-- What is checked before it is made. -/
  checks : List Check
  /-- How many bytes are asked for. -/
  length : Nat
  /-- Where. -/
  offset : UInt64

namespace PlannedRead

/-- A read of a range that has to lie within a size. -/
def range (size : Nat) (length offset : UInt64) : PlannedRead where
  checks := [⟨offset.toNat + length.toNat ≤ size, .truncatedRead offset.toNat length.toNat⟩]
  length := length.toNat
  offset := offset

/-- A read of an entry of a table, whose offset has to be representable. -/
def entry (table : UInt64) (index : Nat) (stride : UInt16) (size : Nat) : PlannedRead where
  checks := [⟨table.toNat + index * stride.toNat < UInt64.size, .truncatedRead table.toNat size⟩]
  length := size
  offset := UInt64.ofNat (table.toNat + index * stride.toNat)

/-- The same read with checks before its own. -/
def behind (checks : List Check) (read : PlannedRead) : PlannedRead :=
  { read with checks := checks ++ read.checks }

end PlannedRead

/-- Which read is due after what was served. -/
abbrev ReadPlan := Served → Option PlannedRead

/-- It was served. -/
def ReadRecord.IsServed (r : ReadRecord) : Prop := ∃ bytes, r.outcome = .ok bytes

/-- What was served to the reads on record. -/
def servedTo (log : List ReadRecord) : Served := log.filterMap fun r ↦ r.outcome.toOption

/-- Every read that succeeds is served as many bytes as were asked for. -/
def Medium.Full {σ : Type} (m : Medium σ) : Prop :=
  ∀ length offset s bytes, ((m.read length offset).ends s).1 = .ok bytes → bytes.length = length

namespace ReadPlan

/-- These reads were made by plan, from what was served before them up to what was served in the
end, or up to a failure. -/
inductive Made (plan : ReadPlan) :
    Served → List ReadRecord → Except Error Served → Prop where
  /-- No read was made. -/
  | nothing (got : Served) : Made plan got [] (.ok got)
  /-- A check did not hold, and the read that is due was not made. -/
  | refused {got : Served} {read : PlannedRead} {e : Error} : plan got = some read →
      Check.run read.checks = .error e → Made plan got [] (.error e)
  /-- The read that is due failed. -/
  | failed {got : Served} {read : PlannedRead} {e : Error} : plan got = some read →
      Check.run read.checks = .ok () →
      Made plan got [⟨read.length, read.offset, .error e⟩] (.error e)
  /-- The read that is due was served. -/
  | served {got : Served} {read : PlannedRead} {bytes : List UInt8} {log : List ReadRecord}
      {reached : Except Error Served} : plan got = some read →
      Check.run read.checks = .ok () → Made plan (got ++ [bytes]) log reached →
      Made plan got (⟨read.length, read.offset, .ok bytes⟩ :: log) reached

namespace Made

variable {plan : ReadPlan} {got got' : Served} {log before after : List ReadRecord}
  {r : ReadRecord} {reached : Except Error Served} {e : Error}

theorem append {more : List ReadRecord} (h : plan.Made got log (.ok got'))
    (hmore : plan.Made got' more reached) : plan.Made got (log ++ more) reached := by
  generalize hfirst : (.ok got' : Except Error Served) = first at h
  induction h with
  | nothing got =>
    cases hfirst
    exact hmore
  | refused => cases hfirst
  | failed => cases hfirst
  | served hdue hchecks _ ih => exact .served hdue hchecks (ih hfirst)

/-- Each read was the one that is due, its checks held, and all reads before it were served. -/
theorem of_append (h : plan.Made got (before ++ r :: after) reached) :
    (∀ b ∈ before, b.IsServed) ∧
      (∃ read, plan (got ++ servedTo before) = some read ∧ Check.run read.checks = .ok () ∧
        r.length = read.length ∧ r.offset = read.offset) ∧
      ∀ e, r.outcome = .error e → after = [] ∧ reached = .error e := by
  induction before generalizing got with
  | nil =>
    rw [servedTo, List.filterMap_nil, List.append_nil]
    refine ⟨fun b hb ↦ absurd hb List.not_mem_nil, ?_⟩
    cases h with
    | failed hdue hchecks =>
      exact ⟨⟨_, hdue, hchecks, rfl, rfl⟩, fun e he ↦ ⟨rfl, congrArg _ (Except.error.inj he)⟩⟩
    | served hdue hchecks _ => exact ⟨⟨_, hdue, hchecks, rfl, rfl⟩, nofun⟩
  | cons b before ih =>
    generalize hlog : b :: before ++ r :: after = log at h
    cases h with
    | nothing => cases hlog
    | refused => cases hlog
    | failed =>
      have hnil := (List.cons.inj hlog).2
      exact absurd hnil (List.append_ne_nil_of_right_ne_nil _ (List.cons_ne_nil _ _))
    | @served _ read bytes _ _ hdue hchecks hrest =>
      obtain ⟨rfl, rfl⟩ := List.cons.inj hlog
      obtain ⟨hbefore, hread, hstop⟩ := ih hrest
      refine ⟨List.forall_mem_cons.mpr ⟨⟨bytes, rfl⟩, hbefore⟩, ?_, hstop⟩
      rwa [List.append_assoc] at hread

/-- Without a failure all reads were served. -/
theorem of_ok (h : plan.Made got log (.ok got')) :
    (∀ r ∈ log, r.IsServed) ∧ got' = got ++ servedTo log := by
  generalize hreached : (.ok got' : Except Error Served) = reached at h
  induction h with
  | nothing got =>
    cases hreached
    exact ⟨fun r hr ↦ absurd hr List.not_mem_nil, (List.append_nil got').symm⟩
  | refused => cases hreached
  | failed => cases hreached
  | @served got read bytes log reached hdue hchecks _ ih =>
    obtain ⟨hall, hgot⟩ := ih hreached
    refine ⟨List.forall_mem_cons.mpr ⟨⟨bytes, rfl⟩, hall⟩, ?_⟩
    rw [hgot, List.append_assoc]
    rfl

/-- A failure is that of the last read, or that of a check of the read that was due then. -/
theorem of_error (h : plan.Made got log (.error e)) :
    (∃ before r, log = before ++ [r] ∧ r.outcome = .error e) ∨
      (∀ r ∈ log, r.IsServed) ∧
        ∃ read, plan (got ++ servedTo log) = some read ∧ Check.run read.checks = .error e := by
  generalize hreached : (.error e : Except Error Served) = reached at h
  induction h with
  | nothing => cases hreached
  | refused hdue hchecks =>
    cases hreached
    refine Or.inr ⟨fun r hr ↦ absurd hr List.not_mem_nil, _, ?_, hchecks⟩
    rwa [servedTo, List.filterMap_nil, List.append_nil]
  | failed =>
    cases hreached
    exact Or.inl ⟨[], _, rfl, rfl⟩
  | @served got read bytes log reached hdue hchecks _ ih =>
    obtain ⟨before, r, rfl, hr⟩ | ⟨hall, next, hnext, hfails⟩ := ih hreached
    · exact Or.inl ⟨_ :: before, r, rfl, hr⟩
    · refine Or.inr ⟨List.forall_mem_cons.mpr ⟨⟨bytes, rfl⟩, hall⟩, next, ?_, hfails⟩
      rwa [List.append_assoc] at hnext

end Made

end ReadPlan

theorem servedTo_append (before after : List ReadRecord) :
    servedTo (before ++ after) = servedTo before ++ servedTo after :=
  List.filterMap_append

theorem length_servedTo {log : List ReadRecord} (h : ∀ r ∈ log, r.IsServed) :
    (servedTo log).length = log.length := by
  induction log with
  | nil => rfl
  | cons r log ih =>
    obtain ⟨⟨bytes, hbytes⟩, hrest⟩ := List.forall_mem_cons.mp h
    rw [servedTo, List.filterMap_cons, hbytes]
    exact congrArg (· + 1) (ih hrest)

namespace Task

variable {σ α β : Type} {plan : ReadPlan} {got : Served} {read : PlannedRead}
  {x : Task (List ReadRecord × σ) α} {f : α → Task (List ReadRecord × σ) β}
  {V : Served → α → Prop} {W : Served → β → Prop} {a : α} {e : Error}

/-- The task reads by plan from what was served before on. Either it comes to a value that is right
for what was served in the end, or it fails as the plan says. -/
def Follows (x : Task (List ReadRecord × σ) α) (plan : ReadPlan) (got : Served)
    (V : Served → α → Prop) : Prop :=
  ∀ s, ∃ made reached, plan.Made got made reached ∧
    (x.ends s).2.1 = s.1 ++ made ∧ Agree V reached (x.ends s).1

theorem Follows.pure (h : V got a) :
    Follows (Pure.pure a : Task (List ReadRecord × σ) α) plan got V :=
  fun s ↦ ⟨[], .ok got, .nothing got, (List.append_nil s.1).symm, .ok h⟩

theorem Follows.tell (event : Event) (plan : ReadPlan) (got : Served) :
    Follows (tell event : Task (List ReadRecord × σ) Unit) plan got fun got' _ ↦ got' = got :=
  fun s ↦ ⟨[], .ok got, .nothing got, (List.append_nil s.1).symm, .ok rfl⟩

theorem Follows.mono {W : Served → α → Prop} (hVW : ∀ got a, V got a → W got a)
    (hx : x.Follows plan got V) : x.Follows plan got W := by
  intro s
  obtain ⟨made, reached, hmade, hlog, hagree⟩ := hx s
  exact ⟨made, reached, hmade, hlog, hagree.mono hVW⟩

/-- What is thrown is the failure of a check of the read that is due. -/
theorem Follows.throw (hdue : plan got = some read) (hfails : Check.run read.checks = .error e) :
    Follows (MonadExcept.throw e : Task (List ReadRecord × σ) α) plan got V :=
  fun s ↦ ⟨[], .error e, .refused hdue hfails, (List.append_nil s.1).symm, .error e⟩

theorem Follows.bind (hx : x.Follows plan got V)
    (hf : ∀ got' a, V got' a → (f a).Follows plan got' W) : (x >>= f).Follows plan got W := by
  intro s
  obtain ⟨made, reached, hmade, hlog, hagree⟩ := hx s
  rcases hends : x.ends s with ⟨outcome, t⟩
  rw [hends] at hlog hagree
  cases hagree with
  | error e =>
    rw [ends_bind_of_error hends]
    exact ⟨made, .error e, hmade, hlog, .error e⟩
  | @ok got' a hV =>
    obtain ⟨more, reached, hmore, hlog', hagree⟩ := hf got' a hV t
    rw [ends_bind_of_ok hends]
    refine ⟨made ++ more, reached, hmade.append hmore, ?_, hagree⟩
    rw [hlog', hlog, List.append_assoc]

/-- Each step has to follow the plan from what is right before it. -/
theorem Follows.foldlM {step : α → Nat → Task (List ReadRecord × σ) α}
    {V : Nat → Served → α → Prop} {first count stop : Nat}
    (h : ∀ i < stop, ∀ got a, V i got a → (step a i).Follows plan got (V (i + 1)))
    (hstop : first + count = stop) (ha : V first got a) :
    ((List.range' first count).foldlM step a).Follows plan got (V stop) := by
  induction count generalizing first got a with
  | zero =>
    rw [Nat.add_zero] at hstop
    exact Follows.pure (hstop ▸ ha)
  | succ count ih =>
    rw [List.range'_succ, List.foldlM_cons]
    exact (h first (by omega) got a ha).bind fun got' a' ha' ↦ ih (by omega) ha'

theorem Follows.mapM {step : Nat → Task (List ReadRecord × σ) α} {V : Nat → Served → Prop}
    {first count stop : Nat}
    (h : ∀ i < stop, ∀ got, V i got → (step i).Follows plan got fun got' _ ↦ V (i + 1) got')
    (hstop : first + count = stop) (hgot : V first got) :
    ((List.range' first count).mapM step).Follows plan got fun got' _ ↦ V stop got' := by
  induction count generalizing first got with
  | zero =>
    rw [Nat.add_zero] at hstop
    exact Follows.pure (hstop ▸ hgot)
  | succ count ih =>
    rw [List.range'_succ, List.mapM_cons]
    refine (h first (by omega) got hgot).bind fun got' a hgot' ↦ ?_
    exact (ih (by omega) hgot').bind fun _ as has ↦ Follows.pure has

end Task

/-! ## The reads of media -/

section Media

variable {σ α : Type} {m : Medium σ} {plan : ReadPlan} {got : Served} {read : PlannedRead}
  {decode? : List UInt8 → Option α} {value : List UInt8 → α}

theorem Medium.full_ofBytes (bytes : List UInt8) : (Medium.ofBytes bytes : Medium σ).Full := by
  intro length offset s found h
  by_cases hle : offset.toNat + length ≤ bytes.length
  · rw [Task.ends, runFrom_read_ofBytes_of_le hle] at h
    rw [← Except.ok.inj h, List.length_take, List.length_drop]
    omega
  · rw [Task.ends, runFrom_read_ofBytes_of_lt (Nat.lt_of_not_le hle)] at h
    cases h

/-- A read that does not fail on schedule is one of the bytes. -/
theorem Schedule.full_medium (bytes : List UInt8) : (medium bytes).Full := by
  intro length offset s found h
  have hnext : (modifyGet (next offset) : Task Schedule Bool).ends s =
      (.ok (s.next offset).1, (s.next offset).2) := rfl
  rw [medium, Task.ends_bind_of_ok hnext] at h
  cases hfails : (s.next offset).1 with
  | true =>
    rw [hfails] at h
    cases h
  | false =>
    rw [hfails] at h
    exact Medium.full_ofBytes bytes _ _ _ _ h

theorem Medium.Full.follows_read (hfull : m.Full) (hdue : plan got = some read)
    (hchecks : Check.run read.checks = .ok ()) :
    (m.recorded.read read.length read.offset).Follows plan got
      fun got' bytes ↦ bytes.length = read.length ∧ got' = got ++ [bytes] := by
  intro s
  rw [ends_read_recorded]
  cases houtcome : ((m.read read.length read.offset).ends s.2).1 with
  | error e => exact ⟨_, .error e, .failed hdue hchecks, rfl, .error e⟩
  | ok bytes =>
    refine ⟨_, .ok (got ++ [bytes]), .served hdue hchecks (.nothing _), rfl, .ok ⟨?_, rfl⟩⟩
    exact hfull _ _ _ _ houtcome

theorem Medium.Full.follows_readRange (hfull : m.Full) {length offset : UInt64}
    (hdue : plan got = some (.range m.size length offset)) :
    (m.recorded.readRange length offset).Follows plan got
      fun got' bytes ↦ bytes.length = length.toNat ∧ got' = got ++ [bytes] := by
  by_cases hle : offset.toNat + length.toNat ≤ m.size
  · rw [readRange, if_pos (show _ ≤ m.recorded.size from hle)]
    exact hfull.follows_read hdue (Check.run_cons_of_holds (decide_eq_true hle) [])
  · rw [readRange, if_neg (show ¬_ ≤ m.recorded.size from hle)]
    exact Task.Follows.throw hdue (Check.run_cons_of_not_holds (by simpa using hle) [])

/-- An entry that was read whole is decoded. -/
theorem Medium.Full.follows_readEntry (hfull : m.Full) (table : UInt64)
    (hdue : plan got = some read) (hchecks : Check.run read.checks = .ok ())
    (hdecode : ∀ entry, read.length ≤ entry.length → decode? entry = some (value entry)) :
    (Image.readEntry m.recorded (some read.offset) table read.length decode?).Follows plan got
      fun got' a ↦ ∃ bytes, got' = got ++ [bytes] ∧ a = value bytes := by
  refine (hfull.follows_read hdue hchecks).bind fun got' bytes hbytes ↦ ?_
  rw [hdecode bytes (Nat.le_of_eq hbytes.1.symm)]
  exact Task.Follows.pure ⟨bytes, hbytes.2, rfl⟩

theorem Medium.Full.follows_readEntry_table (hfull : m.Full) {table : UInt64}
    {index stride : UInt16} {size : Nat} {checks : List Check}
    (hdue : plan got = some ((PlannedRead.entry table index.toNat stride size).behind checks))
    (hchecks : Check.run checks = .ok ())
    (hdecode : ∀ entry, size ≤ entry.length → decode? entry = some (value entry)) :
    (Image.readEntry m.recorded (entryOffset? table index stride) table size decode?).Follows plan
      got fun got' a ↦ ∃ bytes, got' = got ++ [bytes] ∧ a = value bytes := by
  rw [entryOffset?]
  by_cases hlt : table.toNat + index.toNat * stride.toNat < UInt64.size
  · rw [if_pos hlt]
    refine hfull.follows_readEntry table hdue ?_ hdecode
    rw [PlannedRead.behind, Check.run_append, hchecks]
    exact Check.run_cons_of_holds (decide_eq_true hlt) []
  · rw [if_neg hlt]
    refine Task.Follows.throw hdue ?_
    rw [PlannedRead.behind, Check.run_append, hchecks]
    exact Check.run_cons_of_not_holds (by simpa using hlt) []

end Media

end ElfUnwind
