import ElfUnwind.Proofs.AddressRanges
import ElfUnwind.Proofs.RepeatedPasses
import Mathlib.Data.List.Chain
import Mathlib.Data.List.Pairwise

/-!
# Looking up an address

The look-up goes to the FDE with the greatest start that is not above the address and asks no other.
What it finds therefore holds the address, and no FDE that holds it starts later. Where the ranges
follow one another the look-up is the search through all of them
(`FrameIndex.findFde?_of_isOrdered`).

## Ranges inside one another

An FDE that starts inside the range of another hides what the other has behind it. Addresses there
are not found, unless one more FDE begins before they do: that this is the only way to miss an
address is `FrameIndex.findFde?_complete_iff`.
-/

namespace ElfUnwind

namespace SortedMap

variable {κ β : Type} [LT κ] [DecidableLT κ] {m : SortedMap κ β}

theorem lastUpTo?_eq_none_iff {k : κ} :
    m.lastUpTo? k = none ↔ ∀ e ∈ m.entries, k < e.1 := by
  simp only [lastUpTo?, List.find?_eq_none, decide_not, Bool.not_eq_true', mem_entries,
    Bool.not_eq_false, decide_eq_true_eq]

/-! ## Values that know their keys -/

variable [StrictTotal κ] {key : β → κ}

theorem values_ascending (h : ∀ k v, m.get? k = some v → key v = k) :
    m.values.Pairwise fun a b ↦ key a < key b := by
  have hkey : ∀ e ∈ m.entries, key e.2 = e.1 := fun e he ↦ h e.1 e.2 (get?_eq_some_iff.mpr he)
  refine List.pairwise_map.mpr (m.entries_ascending.imp_of_mem fun ha hb hlt ↦ ?_)
  rwa [hkey _ ha, hkey _ hb]

theorem get?_eq_some_iff_mem_values (h : ∀ k v, m.get? k = some v → key v = k) {k : κ} {v : β} :
    m.get? k = some v ↔ v ∈ m.values ∧ key v = k := by
  rw [values, List.mem_map]
  constructor
  · exact fun hget ↦ ⟨⟨(k, v), get?_eq_some_iff.mp hget, rfl⟩, h k v hget⟩
  · rintro ⟨⟨⟨other, v⟩, hmem, rfl⟩, rfl⟩
    have hget := get?_eq_some_iff.mpr hmem
    rwa [h other v hget]

end SortedMap

namespace FrameIndex

variable {index : FrameIndex} {a : UInt64} {f g : Fde}

/-! ## FDEs under their starts -/

/-- Every FDE is kept under the start of its range. -/
def IsByStart (index : FrameIndex) : Prop :=
  ∀ start fde, index.fde? start = some fde → fde.start = start

theorem isByStart_decodePasses (kind : FrameSection) (passes : List FramePass) :
    ((empty kind).decodePasses passes).IsByStart := by
  intro start fde h
  rw [decodePasses_eq, fde?_addAll, fde?_empty, Option.or_none] at h
  exact (FrameEntry.mem_of_lastFde? h).2

theorem IsByStart.mem_values_iff (h : index.IsByStart) :
    f ∈ index.fdes.values ↔ (f.start, f) ∈ index.fdes.entries := by
  rw [← SortedMap.get?_eq_some_iff, SortedMap.get?_eq_some_iff_mem_values h]
  exact (and_iff_left rfl).symm

theorem IsByStart.eq_of_start_eq (h : index.IsByStart) (hf : f ∈ index.fdes.values)
    (hg : g ∈ index.fdes.values) (hstart : f.start = g.start) : f = g := by
  rw [h.mem_values_iff, ← SortedMap.get?_eq_some_iff] at hf hg
  rw [hstart, hg] at hf
  exact (Option.some.inj hf).symm

/-! ## The candidate -/

/-- The FDE has the greatest start that is not above the address. -/
structure IsCandidate (index : FrameIndex) (a : UInt64) (f : Fde) : Prop where
  /-- It is in the index. -/
  mem : f ∈ index.fdes.values
  /-- Its start is not above the address. -/
  start_le : f.start ≤ a
  /-- No such start is greater. -/
  greatest : ∀ g ∈ index.fdes.values, g.start ≤ a → g.start ≤ f.start

theorem IsByStart.lastUpTo?_eq_some_iff (h : index.IsByStart) :
    (index.fdes.lastUpTo? a).map Prod.snd = some f ↔ index.IsCandidate a f := by
  rw [Option.map_eq_some_iff]
  constructor
  · rintro ⟨⟨start, fde⟩, hlast, rfl⟩
    obtain ⟨hmem, hle, hmax⟩ := SortedMap.lastUpTo?_eq_some_iff.mp hlast
    obtain rfl := h start fde (SortedMap.get?_eq_some_iff.mpr hmem)
    refine ⟨h.mem_values_iff.mpr hmem, UInt64.not_lt.mp hle, fun g hg hga ↦ ?_⟩
    exact UInt64.not_lt.mp (hmax _ (h.mem_values_iff.mp hg) (UInt64.not_lt.mpr hga))
  · intro hf
    refine ⟨(f.start, f), SortedMap.lastUpTo?_eq_some_iff.mpr ⟨?_, ?_, ?_⟩, rfl⟩
    · exact h.mem_values_iff.mp hf.mem
    · exact UInt64.not_lt.mpr hf.start_le
    · rintro ⟨start, fde⟩ hmem hle
      obtain rfl := h start fde (SortedMap.get?_eq_some_iff.mpr hmem)
      exact UInt64.not_lt.mpr
        (hf.greatest fde (h.mem_values_iff.mpr hmem) (UInt64.not_lt.mp hle))

/-- There is a candidate as soon as one start is not above the address. -/
theorem IsByStart.exists_isCandidate (h : index.IsByStart) (hg : g ∈ index.fdes.values)
    (hle : g.start ≤ a) : ∃ f, index.IsCandidate a f := by
  cases hlast : index.fdes.lastUpTo? a with
  | none =>
    have habove := SortedMap.lastUpTo?_eq_none_iff.mp hlast _ (h.mem_values_iff.mp hg)
    exact absurd hle (UInt64.not_le.mpr habove)
  | some e => exact ⟨e.2, h.lastUpTo?_eq_some_iff.mp (by rw [hlast]; rfl)⟩

/-- **What is found is the candidate**, if it holds the address. -/
theorem IsByStart.findFde?_eq_some_iff (h : index.IsByStart) :
    index.findFde? a = some f ↔ index.IsCandidate a f ∧ f.contains a = true := by
  rw [findFde?, Option.filter_eq_some_iff, h.lastUpTo?_eq_some_iff]

theorem IsByStart.isSome_findFde?_iff (h : index.IsByStart) :
    (index.findFde? a).isSome = true ↔ ∃ f, index.IsCandidate a f ∧ f.contains a = true := by
  rw [Option.isSome_iff_exists]
  exact exists_congr fun f ↦ h.findFde?_eq_some_iff

/-! ## What is missed -/

/-- One range goes on behind another that starts inside it. -/
def Outlasts (f g : Fde) : Prop := f.start < g.start ∧ g.reach < f.reach

theorem IsByStart.complete_iff (h : index.IsByStart) :
    (∀ a, (∃ f ∈ index.fdes.values, f.contains a = true) → (index.findFde? a).isSome = true) ↔
      ∀ f ∈ index.fdes.values, ∀ g ∈ index.fdes.values, Outlasts f g →
        ∃ next ∈ index.fdes.values, g.start < next.start ∧ next.start ≤ g.reach := by
  constructor
  · intro hall f hf g hg ⟨hstart, hreach⟩
    -- The first address behind the inner range belongs to the outer one.
    have hcontains : f.contains g.reach = true := Fde.contains_iff_reach.mpr
      ⟨UInt64.le_trans (UInt64.le_of_lt hstart) g.start_le_reach, hreach⟩
    obtain ⟨next, hnext, hfound⟩ := h.isSome_findFde?_iff.mp (hall _ ⟨f, hf, hcontains⟩)
    refine ⟨next, hnext.mem, ?_, hnext.start_le⟩
    refine UInt64.lt_of_le_of_ne (hnext.greatest g hg g.start_le_reach) fun hsame ↦ ?_
    rw [← h.eq_of_start_eq hg hnext.mem hsame] at hfound
    exact UInt64.lt_irrefl _ (Fde.contains_iff_reach.mp hfound).2
  · rintro hnext a ⟨f, hf, hcontains⟩
    obtain ⟨hstart, hreach⟩ := Fde.contains_iff_reach.mp hcontains
    obtain ⟨g, hg⟩ := h.exists_isCandidate hf hstart
    refine h.isSome_findFde?_iff.mpr ⟨g, hg, ?_⟩
    by_contra hmissed
    have hbehind : g.reach ≤ a := by
      rw [← UInt64.not_lt]
      exact fun hlt ↦ hmissed (Fde.contains_iff_reach.mpr ⟨hg.start_le, hlt⟩)
    have hinside : f.start < g.start := by
      refine UInt64.lt_of_le_of_ne (hg.greatest f hf hstart) fun hsame ↦ hmissed ?_
      rwa [← h.eq_of_start_eq hf hg.mem hsame]
    obtain ⟨next, hmem, hlater, hbegun⟩ :=
      hnext f hf g hg.mem ⟨hinside, UInt64.lt_of_le_of_lt hbehind hreach⟩
    exact UInt64.not_le.mpr hlater (hg.greatest next hmem (UInt64.le_trans hbegun hbehind))

/-- **When every address is found.** The look-up finds an FDE if the one with the greatest start
holds the address. So it finds each address that any FDE holds just if no range goes on behind one
that starts inside it, before one more range has begun. -/
theorem findFde?_complete_iff (kind : FrameSection) (passes : List FramePass) :
    let index := (empty kind).decodePasses passes
    (∀ a, (index.findFde? a).isSome = true ↔
      ∃ f ∈ index.fdes.values, f.contains a = true ∧
        ∀ g ∈ index.fdes.values, g.start ≤ a → g.start ≤ f.start) ∧
    ((∀ a, (index.findFde? a).isSome = true ↔ ∃ f ∈ index.fdes.values, f.contains a = true) ↔
      ∀ f ∈ index.fdes.values, ∀ g ∈ index.fdes.values, Outlasts f g →
        ∃ next ∈ index.fdes.values, g.start < next.start ∧ next.start ≤ g.reach) := by
  intro index
  have h : index.IsByStart := isByStart_decodePasses kind passes
  refine ⟨fun a ↦ h.isSome_findFde?_iff.trans ⟨?_, ?_⟩, ?_⟩
  · rintro ⟨f, hf, hcontains⟩
    exact ⟨f, hf.mem, hcontains, hf.greatest⟩
  · rintro ⟨f, hmem, hcontains, hmax⟩
    exact ⟨f, ⟨hmem, (Fde.contains_iff.mp hcontains).1, hmax⟩, hcontains⟩
  · rw [← h.complete_iff]
    refine forall_congr' fun a ↦ ⟨Iff.mpr, fun hfound ↦ ⟨fun hsome ↦ ?_, hfound⟩⟩
    obtain ⟨f, hf, hcontains⟩ := h.isSome_findFde?_iff.mp hsome
    exact ⟨f, hf.mem, hcontains⟩

/-- A section with the range of a function, one more inside it, and an empty one behind that. -/
def nestedRanges : List UInt8 :=
  plainCie .ehFrame ++ rangeRecord 20 0x1000 0x100 ++ rangeRecord 44 0x1040 0x20 ++
    rangeRecord 68 0x1080 0

/-- The outer of the ranges is not found behind the inner ones, though it goes on there. -/
theorem findFde?_nestedRanges :
    let index := (empty .ehFrame).decodePasses [⟨⟨.ehFrame, 0, 8⟩, nestedRanges⟩]
    index.fdes.values.map (fun f ↦ (f.start, f.stop)) =
        [(0x1000, 0x1100), (0x1040, 0x1060), (0x1080, 0x1080)] ∧
      index.fdes.values.map (·.contains 0x1070) = [true, false, false] ∧
      index.findFde? 0x1070 = none ∧
      index.fdes.values.map (·.contains 0x1080) = [true, false, false] ∧
      index.findFde? 0x1080 = none :=
  ⟨by cbv, by cbv, by cbv, by cbv, by cbv⟩

/-! ## Ranges one after the other -/

/-- The range ends before the other begins, or there. -/
def Precedes (f g : Fde) : Prop := f.stop ≤ g.start

instance (f g : Fde) : Decidable (Precedes f g) := inferInstanceAs (Decidable (f.stop ≤ g.start))

/-- Each range ends before the next begins, or there. -/
structure IsOrdered (index : FrameIndex) : Prop where
  /-- No range wraps around. -/
  start_le_stop : ∀ f ∈ index.fdes.values, f.start ≤ f.stop
  /-- Each range precedes the next one. -/
  chain : index.fdes.values.IsChain Precedes

theorem IsOrdered.pairwise (h : index.IsOrdered) : index.fdes.values.Pairwise Precedes := by
  -- Ranges that do not wrap around pass the order on.
  have htrans : IsTrans Fde fun f g ↦ Precedes f g ∧ g.start ≤ g.stop :=
    ⟨fun _ _ _ hfg hgh ↦ ⟨UInt64.le_trans hfg.1 (UInt64.le_trans hfg.2 hgh.1), hgh.2⟩⟩
  have hchain : index.fdes.values.IsChain fun f g ↦ Precedes f g ∧ g.start ≤ g.stop :=
    h.chain.imp_of_mem_imp fun _ g _ hg hle ↦ ⟨hle, h.start_le_stop g hg⟩
  exact (List.isChain_iff_pairwise.mp hchain).imp And.left

/-- Of two ranges one precedes the other. -/
theorem IsOrdered.precedes_or (h : index.IsOrdered) (hf : f ∈ index.fdes.values)
    (hg : g ∈ index.fdes.values) (hne : f ≠ g) : Precedes f g ∨ Precedes g f := by
  have hsymm : @Std.Symm Fde fun f g ↦ Precedes f g ∨ Precedes g f := ⟨fun _ _ ↦ Or.symm⟩
  have hboth : index.fdes.values.Pairwise fun f g ↦ Precedes f g ∨ Precedes g f :=
    h.pairwise.imp Or.inl
  exact hboth.forall hf hg hne

/-- The FDE that holds an address is the candidate, as no other has begun behind it. -/
theorem IsOrdered.isCandidate (h : index.IsOrdered) (hf : f ∈ index.fdes.values)
    (hcontains : f.contains a = true) : index.IsCandidate a f := by
  obtain ⟨hstart, hstop⟩ := Fde.contains_iff.mp hcontains
  refine ⟨hf, hstart, fun g hg hga ↦ ?_⟩
  by_cases hsame : f = g
  · rw [hsame]
    exact UInt64.le_refl _
  rcases h.precedes_or hf hg hsame with hbehind | hbefore
  · exact absurd hstop (UInt64.not_lt.mpr (UInt64.le_trans hbehind hga))
  · exact UInt64.le_trans (h.start_le_stop g hg) hbefore

/-- **An address is looked up soundly**: what is found is in the index and holds the address, and no
other FDE that holds it starts as late. **Where the ranges follow one another** the look-up is the
search through all FDEs: it finds the one that holds the address, and nothing just if none does. -/
theorem findFde?_of_isOrdered (kind : FrameSection) (passes : List FramePass) :
    let index := (empty kind).decodePasses passes
    (∀ a f, index.findFde? a = some f →
      f ∈ index.fdes.values ∧ f.contains a = true ∧
        ∀ g ∈ index.fdes.values, g.contains a = true → g ≠ f → g.start < f.start) ∧
    (index.IsOrdered →
      (∀ a, index.findFde? a = index.fdes.values.find? (·.contains a)) ∧
      (∀ a f, index.findFde? a = some f ↔ f ∈ index.fdes.values ∧ f.contains a = true) ∧
      (∀ a, index.findFde? a = none ↔ ∀ f ∈ index.fdes.values, f.contains a = false) ∧
      ∀ f ∈ index.fdes.values, f.isEmpty = false → index.findFde? f.start = some f) := by
  intro index
  have h : index.IsByStart := isByStart_decodePasses kind passes
  refine ⟨?sound, fun hordered ↦ ?_⟩
  case sound =>
    intro a f hfound
    obtain ⟨hf, hcontains⟩ := h.findFde?_eq_some_iff.mp hfound
    refine ⟨hf.mem, hcontains, fun g hg hga hne ↦ ?_⟩
    refine UInt64.lt_of_le_of_ne (hf.greatest g hg (Fde.contains_iff.mp hga).1) fun hsame ↦ ?_
    exact hne (h.eq_of_start_eq hg hf.mem hsame)
  have hsome : ∀ a f, index.findFde? a = some f ↔
      f ∈ index.fdes.values ∧ f.contains a = true := by
    intro a f
    rw [h.findFde?_eq_some_iff]
    exact ⟨fun hf ↦ ⟨hf.1.mem, hf.2⟩, fun hf ↦ ⟨hordered.isCandidate hf.1 hf.2, hf.2⟩⟩
  have hnone : ∀ a, index.findFde? a = none ↔ ∀ f ∈ index.fdes.values, f.contains a = false := by
    intro a
    simp only [Option.eq_none_iff_forall_ne_some, ne_eq, hsome, not_and, Bool.not_eq_true]
  refine ⟨fun a ↦ ?scan, hsome, hnone, fun f hf hempty ↦ (hsome _ _).mpr ⟨hf, ?own⟩⟩
  case scan =>
    cases hscan : index.fdes.values.find? (·.contains a) with
    | none =>
      rw [hnone]
      simpa using hscan
    | some f =>
      have hcontains := List.find?_some hscan
      exact (hsome a f).mpr ⟨List.mem_of_find?_eq_some hscan, hcontains⟩
  case own =>
    rw [Fde.contains_iff_of_le (hordered.start_le_stop f hf), UInt64.sub_self]
    exact Fde.length_pos hempty

/-- A section with two functions side by side, an empty one, and one up to the last address. -/
def orderedRanges : List UInt8 :=
  plainCie .ehFrame ++ rangeRecord 20 0x1000 0x20 ++ rangeRecord 44 0x1020 0x10 ++
    rangeRecord 68 0x1040 0 ++ rangeRecord 92 0xfffffffffffffff0 0xf

theorem findFde?_of_isOrdered_orderedRanges :
    let index := (empty .ehFrame).decodePasses [⟨⟨.ehFrame, 0, 8⟩, orderedRanges⟩]
    index.IsOrdered ∧
      (index.findFde? 0x101f).map Fde.start = some 0x1000 ∧
      (index.findFde? 0x1020).map Fde.start = some 0x1020 ∧
      index.findFde? 0x1040 = index.fdes.values.find? (·.contains 0x1040) ∧
      index.findFde? 0xffffffffffffffff = none := by
  intro index
  have hordered : index.IsOrdered := ⟨by decide +kernel, by decide +kernel⟩
  obtain ⟨hscan, hsome, hnone, -⟩ :=
    (findFde?_of_isOrdered .ehFrame [⟨⟨.ehFrame, 0, 8⟩, orderedRanges⟩]).2 hordered
  refine ⟨hordered, ?_, ?_, hscan 0x1040, (hnone _).mpr (by decide +kernel)⟩
  · rw [show index.findFde? 0x101f = _ from hscan 0x101f]
    decide +kernel
  · rw [show index.findFde? 0x1020 = _ from hscan 0x1020]
    decide +kernel

end FrameIndex

end ElfUnwind
