import ElfUnwind.Source.Medium

/-!
# What tasks come to

The outcome of a task and the state it leaves, without its narration, as equations for each way a
task is put together. A medium can be made to keep a record of its reads, which is how a statement
about the number of reads is made for every medium at once.
-/

namespace ElfUnwind

namespace Task

variable {σ μ α β : Type} {x : Task σ α} {f : α → Task σ β} {s t : σ} {a : α} {e : Error}

/-- The outcome of a task and the state it leaves. -/
def ends (task : Task σ α) (s : σ) : Except Error α × σ := (task.runFrom s).value

@[simp] theorem ends_pure (a : α) (s : σ) : ends (pure a) s = (.ok a, s) := rfl

@[simp] theorem ends_throw (e : Error) (s : σ) : ends (throw e : Task σ α) s = (.error e, s) := rfl

@[simp] theorem ends_tell (event : Event) (s : σ) : ends (tell event) s = (.ok (), s) := rfl

@[simp] theorem ends_ofTold (told : Told α) (s : σ) : ends (ofTold told) s = (.ok told.value, s) :=
  rfl

@[simp] theorem ends_get (s : σ) : ends (get : Task σ σ) s = (.ok s, s) := rfl

@[simp] theorem ends_modify (g : σ → σ) (s : σ) :
    ends (modify g : Task σ PUnit) s = (.ok ⟨⟩, g s) := rfl

@[simp] theorem ends_onSecond (task : Task σ α) (s : μ × σ) :
    ends task.onSecond s = ((task.ends s.2).1, (s.1, (task.ends s.2).2)) := rfl

/-- Looking at the state is telling nothing. -/
theorem runFrom_get_bind (f : σ → Task σ α) (s : σ) :
    (get >>= f : Task σ α).runFrom s = (f s).runFrom s := rfl

theorem ends_bind_of_ok (h : x.ends s = (.ok a, t)) : ends (x >>= f) s = (f a).ends t := by
  change ((x.run.run s) >>= fun p ↦ (ExceptT.bindCont f p.1).run p.2).value = _
  rw [Told.value_bind, show (x.run.run s).value = (.ok a, t) from h]
  rfl

theorem ends_bind_of_error (h : x.ends s = (.error e, t)) : ends (x >>= f) s = (.error e, t) := by
  change ((x.run.run s) >>= fun p ↦ (ExceptT.bindCont f p.1).run p.2).value = _
  rw [Told.value_bind, show (x.run.run s).value = (.error e, t) from h]
  rfl

end Task

/-! ## Records of reads -/

/-- A read that was made. -/
structure ReadRecord where
  /-- How many bytes were asked for. -/
  length : Nat
  /-- Where. -/
  offset : UInt64
  /-- What came of it. -/
  outcome : Except Error (List UInt8)

namespace Medium

variable {σ : Type}

/-- The medium that puts every read on record. -/
def recorded (m : Medium σ) : Medium (List ReadRecord × σ) where
  size := m.size
  read length offset := fun s ↦ do
    let (outcome, t) ← (m.read length offset) s.2
    return (outcome, (s.1 ++ [⟨length, offset, outcome⟩], t))

theorem ends_read_recorded (m : Medium σ) (length : Nat) (offset : UInt64)
    (s : List ReadRecord × σ) :
    (m.recorded.read length offset).ends s =
      (((m.read length offset).ends s.2).1,
        (s.1 ++ [⟨length, offset, ((m.read length offset).ends s.2).1⟩],
          ((m.read length offset).ends s.2).2)) := rfl

theorem ends_readRange_of_le (m : Medium σ) {length offset : UInt64}
    (h : offset.toNat + length.toNat ≤ m.size) (s : σ) :
    (m.readRange length offset).ends s = (m.read length.toNat offset).ends s := by
  rw [readRange, if_pos h]

theorem ends_readRange_of_lt (m : Medium σ) {length offset : UInt64}
    (h : m.size < offset.toNat + length.toNat) (s : σ) :
    (m.readRange length offset).ends s =
      (.error (.truncatedRead offset.toNat length.toNat), s) := by
  rw [readRange, if_neg (Nat.not_le.mpr h), Task.ends_throw]

theorem ends_read_ofBytes (bytes : List UInt8) (length : Nat) (offset : UInt64) (s : σ) :
    ((ofBytes bytes).read length offset).ends s =
      (if offset.toNat + length ≤ bytes.length then .ok ((bytes.drop offset.toNat).take length)
      else .error (.truncatedRead offset.toNat length), s) := by
  by_cases hle : offset.toNat + length ≤ bytes.length
  · rw [Task.ends, runFrom_read_ofBytes_of_le hle, if_pos hle]
    rfl
  · rw [Task.ends, runFrom_read_ofBytes_of_lt (Nat.lt_of_not_le hle), if_neg hle]
    rfl

end Medium

end ElfUnwind
