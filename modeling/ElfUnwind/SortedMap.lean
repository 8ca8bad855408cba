/-!
# Maps in the order of their keys

A map kept as the list of its entries with strictly descending keys, so that adding entries in the
order of their keys takes no search. Each map has one such list: two maps with the same entries are
equal (`SortedMap.ext_get?`). Besides look-up by key there is `lastUpTo?`, the entry with the
greatest key that does not exceed a given one.
-/

namespace ElfUnwind

/-- The relation `<` is irreflexive, transitive and relates any two different keys. -/
class StrictTotal (κ : Type) [LT κ] : Prop where
  /-- No key is below itself. -/
  irrefl (a : κ) : ¬ a < a
  /-- Below is passed on. -/
  trans {a b c : κ} : a < b → b < c → a < c
  /-- Keys of which neither is below the other are the same. -/
  eq_of_not_lt {a b : κ} : ¬ a < b → ¬ b < a → a = b

instance : StrictTotal Nat where
  irrefl := Nat.lt_irrefl
  trans := Nat.lt_trans
  eq_of_not_lt := by omega

instance : StrictTotal UInt64 where
  irrefl _ := UInt64.lt_irrefl _
  trans := UInt64.lt_trans
  eq_of_not_lt h₁ h₂ := UInt64.le_antisymm (UInt64.not_lt.mp h₂) (UInt64.not_lt.mp h₁)

instance : StrictTotal String where
  irrefl := String.lt_irrefl
  trans := String.lt_trans
  eq_of_not_lt h₁ h₂ := String.le_antisymm (String.not_lt.mp h₂) (String.not_lt.mp h₁)

/-- Entries by key, each key there once. -/
structure SortedMap (κ β : Type) [LT κ] where
  /-- Keys with their values, the greatest key first. -/
  stored : List (κ × β)
  /-- Each key is above all later ones. -/
  descending : stored.Pairwise fun a b => b.1 < a.1

namespace SortedMap

variable {κ β : Type} [LT κ]

/-- No entries. -/
def empty : SortedMap κ β := ⟨[], List.Pairwise.nil⟩

instance : Inhabited (SortedMap κ β) := ⟨empty⟩

/-- How many entries there are. -/
def size (m : SortedMap κ β) : Nat := m.stored.length

/-- The entries in the order of their keys. -/
def entries (m : SortedMap κ β) : List (κ × β) := m.stored.reverse

/-- The values in the order of their keys. -/
def values (m : SortedMap κ β) : List β := m.entries.map Prod.snd

/-- The keys in order. -/
def keys (m : SortedMap κ β) : List κ := m.entries.map Prod.fst

@[simp]
theorem mem_entries {m : SortedMap κ β} {e : κ × β} : e ∈ m.entries ↔ e ∈ m.stored :=
  List.mem_reverse

@[simp]
theorem length_entries (m : SortedMap κ β) : m.entries.length = m.size :=
  List.length_reverse

theorem entries_ascending (m : SortedMap κ β) : m.entries.Pairwise fun a b => a.1 < b.1 :=
  List.pairwise_reverse.mpr m.descending

/-- Entries in descending order are determined by their members. -/
theorem eq_of_mem_iff [StrictTotal κ] {as bs : List (κ × β)}
    (ha : as.Pairwise fun a b => b.1 < a.1) (hb : bs.Pairwise fun a b => b.1 < a.1)
    (h : ∀ e, e ∈ as ↔ e ∈ bs) : as = bs := by
  induction as generalizing bs with
  | nil =>
    cases bs with
    | nil => rfl
    | cons b bs => exact absurd ((h b).mpr List.mem_cons_self) List.not_mem_nil
  | cons a as ih =>
    cases bs with
    | nil => exact absurd ((h a).mp List.mem_cons_self) List.not_mem_nil
    | cons b bs =>
      obtain ⟨ha₁, ha₂⟩ := List.pairwise_cons.mp ha
      obtain ⟨hb₁, hb₂⟩ := List.pairwise_cons.mp hb
      have hab : a = b := by
        rcases List.mem_cons.mp ((h a).mp List.mem_cons_self) with rfl | ha'
        · rfl
        · rcases List.mem_cons.mp ((h b).mpr List.mem_cons_self) with rfl | hb'
          · rfl
          · exact absurd (StrictTotal.trans (ha₁ b hb') (hb₁ a ha')) (StrictTotal.irrefl _)
      subst hab
      rw [ih ha₂ hb₂ fun e => ?_]
      constructor
      · intro he
        rcases List.mem_cons.mp ((h e).mp (List.mem_cons_of_mem _ he)) with rfl | he'
        · exact absurd (ha₁ _ he) (StrictTotal.irrefl _)
        · exact he'
      · intro he
        rcases List.mem_cons.mp ((h e).mpr (List.mem_cons_of_mem _ he)) with rfl | he'
        · exact absurd (hb₁ _ he) (StrictTotal.irrefl _)
        · exact he'

section Decidable

variable [DecidableLT κ]

/-- Entries with one more key, or with a new value for a key that is there. -/
def insertEntry (k : κ) (v : β) : List (κ × β) → List (κ × β)
  | [] => [(k, v)]
  | (k', v') :: es =>
    if k' < k then (k, v) :: (k', v') :: es
    else if k < k' then (k', v') :: insertEntry k v es
    else (k, v) :: es

/-- The value of a key among entries. -/
def find (k : κ) : List (κ × β) → Option β
  | [] => none
  | (k', v) :: es => if k < k' then find k es else if k' < k then none else some v

/-- The value of a key. -/
def get? (m : SortedMap κ β) (k : κ) : Option β := find k m.stored

/-- The entry with the greatest key that is not above `k`. -/
def lastUpTo? (m : SortedMap κ β) (k : κ) : Option (κ × β) := m.stored.find? fun e => ¬ k < e.1

@[simp]
theorem get?_empty (k : κ) : (empty : SortedMap κ β).get? k = none := rfl

variable [StrictTotal κ]

theorem mem_insertEntry {k : κ} {v : β} {es : List (κ × β)}
    (h : es.Pairwise fun a b => b.1 < a.1) {e : κ × β} :
    e ∈ insertEntry k v es ↔ e = (k, v) ∨ (e ∈ es ∧ e.1 ≠ k) := by
  induction es with
  | nil => simp [insertEntry]
  | cons head es ih =>
    obtain ⟨k', v'⟩ := head
    obtain ⟨hhead, htail⟩ := List.pairwise_cons.mp h
    rw [insertEntry]
    split
    · rename_i hlt
      have hne : ∀ x ∈ (k', v') :: es, x.1 ≠ k := by
        rintro x hx rfl
        rcases List.mem_cons.mp hx with rfl | hx
        · exact StrictTotal.irrefl _ hlt
        · exact StrictTotal.irrefl _ (StrictTotal.trans (hhead x hx) hlt)
      constructor
      · intro he
        rcases List.mem_cons.mp he with rfl | he
        · exact Or.inl rfl
        · exact Or.inr ⟨he, hne e he⟩
      · rintro (rfl | ⟨he, _⟩)
        · exact List.mem_cons_self
        · exact List.mem_cons_of_mem _ he
    · split
      · rename_i hlt
        have hne : k' ≠ k := by
          rintro rfl
          exact StrictTotal.irrefl _ hlt
        rw [List.mem_cons, ih htail, List.mem_cons]
        constructor
        · rintro (rfl | rfl | ⟨he, hk⟩)
          · exact Or.inr ⟨Or.inl rfl, hne⟩
          · exact Or.inl rfl
          · exact Or.inr ⟨Or.inr he, hk⟩
        · rintro (rfl | ⟨rfl | he, hk⟩)
          · exact Or.inr (Or.inl rfl)
          · exact Or.inl rfl
          · exact Or.inr (Or.inr ⟨he, hk⟩)
      · rename_i h₁ h₂
        obtain rfl := StrictTotal.eq_of_not_lt h₁ h₂
        have hne : ∀ x ∈ es, x.1 ≠ k' := by
          intro x hx heq
          exact StrictTotal.irrefl k' (heq ▸ hhead x hx)
        constructor
        · intro he
          rcases List.mem_cons.mp he with rfl | he
          · exact Or.inl rfl
          · exact Or.inr ⟨List.mem_cons_of_mem _ he, hne e he⟩
        · rintro (rfl | ⟨he, hk⟩)
          · exact List.mem_cons_self
          · rcases List.mem_cons.mp he with rfl | he
            · exact absurd rfl hk
            · exact List.mem_cons_of_mem _ he

theorem insertEntry_descending {k : κ} {v : β} {es : List (κ × β)}
    (h : es.Pairwise fun a b => b.1 < a.1) :
    (insertEntry k v es).Pairwise fun a b => b.1 < a.1 := by
  induction es with
  | nil => simp [insertEntry]
  | cons head es ih =>
    obtain ⟨k', v'⟩ := head
    obtain ⟨hhead, htail⟩ := List.pairwise_cons.mp h
    rw [insertEntry]
    split
    · rename_i hlt
      refine List.pairwise_cons.mpr ⟨fun x hx => ?_, h⟩
      rcases List.mem_cons.mp hx with rfl | hx
      · exact hlt
      · exact StrictTotal.trans (hhead x hx) hlt
    · split
      · rename_i hlt
        refine List.pairwise_cons.mpr ⟨fun x hx => ?_, ih htail⟩
        rcases (mem_insertEntry htail).mp hx with rfl | ⟨hx, _⟩
        · exact hlt
        · exact hhead x hx
      · rename_i h₁ h₂
        obtain rfl := StrictTotal.eq_of_not_lt h₁ h₂
        exact List.pairwise_cons.mpr ⟨hhead, htail⟩

theorem find_eq_some_iff {k : κ} {es : List (κ × β)}
    (h : es.Pairwise fun a b => b.1 < a.1) {v : β} : find k es = some v ↔ (k, v) ∈ es := by
  induction es with
  | nil => simp [find]
  | cons head es ih =>
    obtain ⟨k', v'⟩ := head
    obtain ⟨hhead, htail⟩ := List.pairwise_cons.mp h
    rw [find, List.mem_cons]
    split
    · rename_i hlt
      rw [ih htail]
      refine ⟨Or.inr, ?_⟩
      rintro (heq | hmem)
      · exact absurd ((Prod.mk.inj heq).1 ▸ hlt) (StrictTotal.irrefl _)
      · exact hmem
    · rename_i h₁
      split
      · rename_i hlt
        refine ⟨fun hn => by simp at hn, ?_⟩
        rintro (heq | hmem)
        · exact absurd ((Prod.mk.inj heq).1 ▸ hlt) (StrictTotal.irrefl _)
        · exact absurd (StrictTotal.trans (hhead _ hmem) hlt) (StrictTotal.irrefl _)
      · rename_i h₂
        obtain rfl := StrictTotal.eq_of_not_lt h₁ h₂
        constructor
        · intro hv
          exact Or.inl (by rw [Option.some.inj hv])
        · rintro (heq | hmem)
          · rw [(Prod.mk.inj heq).2]
          · exact absurd (hhead _ hmem) (StrictTotal.irrefl _)

/-- Adds an entry; a key that is there gets the new value. -/
def insert (k : κ) (v : β) (m : SortedMap κ β) : SortedMap κ β :=
  ⟨insertEntry k v m.stored, insertEntry_descending m.descending⟩

/-! ## The laws of look-up -/

theorem get?_eq_some_iff {m : SortedMap κ β} {k : κ} {v : β} :
    m.get? k = some v ↔ (k, v) ∈ m.entries := by
  rw [mem_entries]
  exact find_eq_some_iff m.descending

theorem mem_entries_insert {m : SortedMap κ β} {k : κ} {v : β} {e : κ × β} :
    e ∈ (m.insert k v).entries ↔ e = (k, v) ∨ (e ∈ m.entries ∧ e.1 ≠ k) := by
  rw [mem_entries, mem_entries]
  exact mem_insertEntry m.descending

/-- A key above all others goes to the end. -/
theorem entries_insert_of_forall_lt {m : SortedMap κ β} {k : κ} (v : β)
    (h : ∀ e ∈ m.entries, e.1 < k) : (m.insert k v).entries = m.entries ++ [(k, v)] := by
  obtain ⟨es, hes⟩ := m
  have hstored : insertEntry k v es = (k, v) :: es := by
    cases es with
    | nil => rfl
    | cons e es => rw [insertEntry, if_pos (h e (mem_entries.mpr List.mem_cons_self))]
  change (insertEntry k v es).reverse = es.reverse ++ [(k, v)]
  rw [hstored, List.reverse_cons]

@[simp]
theorem get?_insert_self (m : SortedMap κ β) (k : κ) (v : β) : (m.insert k v).get? k = some v :=
  get?_eq_some_iff.mpr (mem_entries_insert.mpr (Or.inl rfl))

theorem get?_insert_of_ne {m : SortedMap κ β} {k k' : κ} (v : β) (h : k' ≠ k) :
    (m.insert k v).get? k' = m.get? k' := by
  refine Option.ext fun x => ?_
  rw [get?_eq_some_iff, get?_eq_some_iff, mem_entries_insert]
  refine ⟨?_, fun hx => Or.inr ⟨hx, h⟩⟩
  rintro (heq | ⟨hx, _⟩)
  · exact absurd (Prod.mk.inj heq).1 h
  · exact hx

/-- Maps that give every key the same value are the same map. -/
theorem ext_get? {m n : SortedMap κ β} (h : ∀ k, m.get? k = n.get? k) : m = n := by
  obtain ⟨as, ha⟩ := m
  obtain ⟨bs, hb⟩ := n
  have hmem : as = bs := eq_of_mem_iff ha hb fun e => by
    have hfind : find e.1 as = find e.1 bs := h e.1
    rw [← find_eq_some_iff ha, ← find_eq_some_iff hb, hfind]
  subst hmem
  rfl

theorem find?_eq_some_iff_greatest {k : κ} {es : List (κ × β)}
    (h : es.Pairwise fun a b => b.1 < a.1) {e : κ × β} :
    (es.find? fun x => ¬ k < x.1) = some e ↔
      e ∈ es ∧ ¬ k < e.1 ∧ ∀ x ∈ es, ¬ k < x.1 → ¬ e.1 < x.1 := by
  induction es with
  | nil => simp
  | cons head es ih =>
    obtain ⟨hhead, htail⟩ := List.pairwise_cons.mp h
    by_cases hk : k < head.1
    · rw [List.find?_cons_of_neg (by simpa using hk), ih htail]
      constructor
      · rintro ⟨he, hek, hmax⟩
        refine ⟨List.mem_cons_of_mem _ he, hek, fun x hx hxk => ?_⟩
        rcases List.mem_cons.mp hx with rfl | hx
        · exact absurd hk hxk
        · exact hmax x hx hxk
      · rintro ⟨he, hek, hmax⟩
        rcases List.mem_cons.mp he with rfl | he
        · exact absurd hk hek
        · exact ⟨he, hek, fun x hx => hmax x (List.mem_cons_of_mem _ hx)⟩
    · rw [List.find?_cons_of_pos (by simpa using hk), Option.some.injEq]
      constructor
      · rintro rfl
        refine ⟨List.mem_cons_self, hk, fun x hx _ hlt => ?_⟩
        rcases List.mem_cons.mp hx with rfl | hx
        · exact StrictTotal.irrefl _ hlt
        · exact StrictTotal.irrefl _ (StrictTotal.trans hlt (hhead x hx))
      · rintro ⟨he, _, hmax⟩
        rcases List.mem_cons.mp he with rfl | he
        · rfl
        · exact absurd (hhead e he) (hmax head List.mem_cons_self hk)

/-- The entry found is there, is not above `k`, and no such entry is greater. -/
theorem lastUpTo?_eq_some_iff {m : SortedMap κ β} {k : κ} {e : κ × β} :
    m.lastUpTo? k = some e ↔
      e ∈ m.entries ∧ ¬ k < e.1 ∧ ∀ x ∈ m.entries, ¬ k < x.1 → ¬ e.1 < x.1 := by
  simp only [mem_entries]
  exact find?_eq_some_iff_greatest m.descending

end Decidable

end SortedMap

end ElfUnwind
