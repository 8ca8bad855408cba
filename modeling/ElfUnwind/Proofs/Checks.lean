import ElfUnwind.Proofs.TaskRuns

/-!
# Tasks as rows of checks

A task that only looks whether conditions hold, one after the other, is told by the row of its
conditions and by what it comes to when all of them hold. Such rows are put together as the tasks
are: one behind the other along a bind, and one for each step of a loop.
-/

namespace ElfUnwind

/-- A condition, and the failure where it does not hold. -/
structure Check where
  /-- Whether the condition holds. -/
  holds : Bool
  /-- The failure. -/
  otherwise : Error
  deriving DecidableEq, Repr

namespace Check

/-- Makes checks in their order; the first that does not hold ends it. -/
def run : List Check → Except Error Unit
  | [] => .ok ()
  | c :: cs => if c.holds then run cs else .error c.otherwise

theorem run_cons_of_holds {c : Check} (h : c.holds = true) (cs : List Check) :
    run (c :: cs) = run cs := by
  rw [run, if_pos h]

theorem run_cons_of_not_holds {c : Check} (h : ¬c.holds = true) (cs : List Check) :
    run (c :: cs) = .error c.otherwise := by
  rw [run, if_neg h]

theorem run_append (as bs : List Check) : run (as ++ bs) = (run as).bind fun _ ↦ run bs := by
  induction as with
  | nil => rfl
  | cons a as ih =>
    by_cases h : a.holds = true
    · rw [List.cons_append, run_cons_of_holds h, run_cons_of_holds h, ih]
    · rw [List.cons_append, run_cons_of_not_holds h, run_cons_of_not_holds h]
      rfl

theorem run_eq_ok_iff {cs : List Check} : run cs = .ok () ↔ ∀ c ∈ cs, c.holds = true := by
  induction cs with
  | nil => exact ⟨fun _ c hc ↦ absurd hc List.not_mem_nil, fun _ ↦ rfl⟩
  | cons c cs ih =>
    rw [List.forall_mem_cons]
    by_cases h : c.holds = true
    · rw [run_cons_of_holds h, ih, and_iff_right h]
    · rw [run_cons_of_not_holds h]
      constructor
      · intro herror
        cases herror
      · intro hall
        exact absurd hall.1 h

/-- The failure is that of a check that does not hold while all before it do. -/
theorem run_eq_error_iff {cs : List Check} {e : Error} :
    run cs = .error e ↔ ∃ before c after, cs = before ++ c :: after ∧
      (∀ b ∈ before, b.holds = true) ∧ ¬c.holds = true ∧ c.otherwise = e := by
  constructor
  · intro h
    induction cs with
    | nil => cases h
    | cons c cs ih =>
      by_cases hc : c.holds = true
      · rw [run_cons_of_holds hc] at h
        obtain ⟨before, d, after, rfl, hbefore, hrest⟩ := ih h
        exact ⟨c :: before, d, after, rfl, List.forall_mem_cons.mpr ⟨hc, hbefore⟩, hrest⟩
      · rw [run_cons_of_not_holds hc] at h
        cases h
        exact ⟨[], c, cs, rfl, fun b hb ↦ absurd hb List.not_mem_nil, hc, rfl⟩
  · rintro ⟨before, c, after, rfl, hbefore, hc, rfl⟩
    rw [run_append, run_eq_ok_iff.mpr hbefore]
    exact run_cons_of_not_holds hc after

end Check

namespace Task

variable {σ α β ι : Type} {x : Task σ α} {f : α → Task σ β} {cs ds : List Check} {a : α} {b : β}

/-- The task makes the checks and comes to `a` if all of them hold. It leaves the state alone. -/
def Makes (x : Task σ α) (cs : List Check) (a : α) : Prop :=
  ∀ s, x.ends s = ((Check.run cs).map fun _ ↦ a, s)

/-- It comes to its value exactly if all checks hold. -/
theorem Makes.eq_ok_iff (hx : x.Makes cs a) {s : σ} {a' : α} :
    (x.ends s).1 = .ok a' ↔ (∀ c ∈ cs, c.holds = true) ∧ a' = a := by
  rw [hx s, ← Check.run_eq_ok_iff]
  cases Check.run cs with
  | error e =>
    constructor
    · intro h
      cases h
    · rintro ⟨h, -⟩
      cases h
  | ok u => exact ⟨fun h ↦ ⟨rfl, (Except.ok.inj h).symm⟩, fun h ↦ congrArg Except.ok h.2.symm⟩

/-- It fails exactly with the failure of the first check that does not hold. -/
theorem Makes.eq_error_iff (hx : x.Makes cs a) {s : σ} {e : Error} :
    (x.ends s).1 = .error e ↔ ∃ before c after, cs = before ++ c :: after ∧
      (∀ b ∈ before, b.holds = true) ∧ ¬c.holds = true ∧ c.otherwise = e := by
  rw [hx s, ← Check.run_eq_error_iff]
  cases Check.run cs with
  | error e' => exact ⟨fun h ↦ congrArg Except.error (Except.error.inj h),
      fun h ↦ congrArg Except.error (Except.error.inj h)⟩
  | ok u =>
    constructor
    · intro h
      cases h
    · intro h
      cases h

theorem Makes.pure (a : α) : Makes (Pure.pure a : Task σ α) [] a := fun _ ↦ rfl

theorem Makes.tell (event : Event) : Makes (tell event : Task σ Unit) [] () := fun _ ↦ rfl

/-- The second task has to be told by its checks only if those of the first hold. -/
theorem Makes.bind (hx : x.Makes cs a)
    (hf : (∀ c ∈ cs, c.holds = true) → (f a).Makes ds b) : (x >>= f).Makes (cs ++ ds) b := by
  intro s
  have hxs := hx s
  rw [Check.run_append]
  cases hrun : Check.run cs with
  | error e =>
    rw [hrun] at hxs
    rw [ends_bind_of_error hxs]
    rfl
  | ok u =>
    rw [hrun] at hxs
    rw [ends_bind_of_ok hxs, hf (Check.run_eq_ok_iff.mp hrun) s]
    rfl

/-- A task behind that makes no checks of its own. -/
theorem Makes.bind_nil (hx : x.Makes cs a)
    (hf : (∀ c ∈ cs, c.holds = true) → (f a).Makes [] b) : (x >>= f).Makes cs b := by
  have h := hx.bind hf
  rwa [List.append_nil] at h

/-- A condition that is looked at before a task is the first of its checks. -/
theorem Makes.of_not {p : Prop} [Decidable p] {y : Task σ α} {e : Error}
    (hy : ∀ s, y.ends s = (.error e, s)) (hx : ¬p → x.Makes cs a) :
    (if p then y else x).Makes (⟨¬p, e⟩ :: cs) a := by
  intro s
  by_cases hp : p
  · rw [if_pos hp, Check.run_cons_of_not_holds (by simpa using hp), hy s]
    rfl
  · rw [if_neg hp, Check.run_cons_of_holds (by simpa using hp), hx hp s]

/-- What tells and comes to a value makes the checks of the part before. -/
theorem Makes.bind_tell (hx : x.Makes cs a) (event : α → Event) :
    (do
      let a ← x
      Task.tell (event a)
      return a : Task σ α).Makes cs a :=
  hx.bind_nil fun _ ↦ (Makes.tell (event a)).bind fun _ ↦ Makes.pure a

theorem Makes.foldlM {step : α → ι → Task σ α} {checks : ι → List Check} {next : α → ι → α}
    {is : List ι} (h : ∀ a, ∀ i ∈ is, (step a i).Makes (checks i) (next a i)) (a : α) :
    (is.foldlM step a).Makes (is.flatMap checks) (is.foldl next a) := by
  induction is generalizing a with
  | nil => exact Makes.pure a
  | cons i is ih =>
    rw [List.foldlM_cons, List.flatMap_cons, List.foldl_cons]
    refine (h a i List.mem_cons_self).bind fun _ ↦ ih ?_ (next a i)
    exact fun a j hj ↦ h a j (List.mem_cons_of_mem i hj)

theorem Makes.mapM {step : ι → Task σ α} {checks : ι → List Check} {value : ι → α} {is : List ι}
    (h : ∀ i ∈ is, (step i).Makes (checks i) (value i)) :
    (is.mapM step).Makes (is.flatMap checks) (is.map value) := by
  induction is with
  | nil => exact Makes.pure []
  | cons i is ih =>
    rw [List.mapM_cons, List.flatMap_cons, List.map_cons]
    refine (h i List.mem_cons_self).bind fun _ ↦ ?_
    exact (ih fun j hj ↦ h j (List.mem_cons_of_mem i hj)).bind_nil fun _ ↦ Makes.pure _

end Task

end ElfUnwind
