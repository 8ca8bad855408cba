import ElfUnwind.Proofs.Displacement
import ElfUnwind.Proofs.RelativeAddresses

/-!
# Sections further on, and sections mapped elsewhere

The two laws that `Transcript.ofSpan_moved` is stated for. Behind zeros a section of `.eh_frame` is
decoded as it would be at a base that is as much higher: everything moves by the number of zeros
except addresses (`FrameIndex.decodeInto_zeros_append`). At another base nothing changes but
addresses that are relative to their own place (`FrameIndex.decodeInto_rebase`).

## Keys

An index is the entries of a transcript under their keys. Where the keys move, entries may come to
stand in another order, as addresses wrap around; but different keys stay different, so that none is
lost and none appears (`SortedMap.Rekeyed`).
-/

namespace ElfUnwind

/-! ## Maps whose keys move -/

namespace SortedMap

variable {κ β : Type} [LT κ] {key : κ → κ} {value : β → β} {m m' : SortedMap κ β}

/-- A map that has the entries of another one, with other keys and other values. -/
def Rekeyed (key : κ → κ) (value : β → β) (m m' : SortedMap κ β) : Prop :=
  ∀ e, e ∈ m'.entries ↔ e ∈ m.entries.map (Prod.map key value)

theorem Rekeyed.empty : Rekeyed key value (empty : SortedMap κ β) empty := by
  intro e
  rfl

theorem Rekeyed.insert [DecidableLT κ] [StrictTotal κ] (hkey : Function.Injective key)
    (h : Rekeyed key value m m') (k : κ) (v : β) :
    Rekeyed key value (m.insert k v) (m'.insert (key k) (value v)) := by
  intro e
  rw [mem_entries_insert, h e, List.mem_map, List.mem_map]
  constructor
  · rintro (rfl | ⟨⟨a, ha, rfl⟩, hne⟩)
    · exact ⟨(k, v), mem_entries_insert.mpr (Or.inl rfl), rfl⟩
    · exact ⟨a, mem_entries_insert.mpr (Or.inr ⟨ha, fun heq ↦ hne (congrArg key heq)⟩), rfl⟩
  · rintro ⟨a, ha, rfl⟩
    rcases mem_entries_insert.mp ha with rfl | ⟨hold, hne⟩
    · exact Or.inl rfl
    · exact Or.inr ⟨⟨a, hold, rfl⟩, fun heq ↦ hne (hkey heq)⟩

theorem nodup_keys [StrictTotal κ] (m : SortedMap κ β) : m.keys.Nodup := by
  refine List.pairwise_map.mpr (m.entries_ascending.imp fun hlt heq ↦ ?_)
  rw [heq] at hlt
  exact StrictTotal.irrefl _ hlt

/-- **One to one**: where different keys stay different, the entries are the same up to order. -/
theorem Rekeyed.perm [StrictTotal κ] (hkey : Function.Injective key) (h : Rekeyed key value m m') :
    m'.entries.Perm (m.entries.map (Prod.map key value)) := by
  refine (List.perm_ext_iff_of_nodup m'.nodup_keys.of_map ?_).mpr h
  refine List.Nodup.of_map Prod.fst ?_
  rw [List.map_map, show Prod.fst ∘ Prod.map key value = key ∘ Prod.fst from rfl, ← List.map_map]
  exact m.nodup_keys.map hkey

theorem Rekeyed.eq [DecidableLT κ] [StrictTotal κ] (h : Rekeyed id id m m') : m' = m := by
  refine ext_get? fun k ↦ Option.ext fun v ↦ ?_
  rw [get?_eq_some_iff, get?_eq_some_iff, h, Prod.map_id, List.map_id]

/-- Where the keys stay in order, the entries are the same one after the other. -/
theorem Rekeyed.entries_eq [StrictTotal κ] (hkey : ∀ a b, a < b → key a < key b)
    (h : Rekeyed key value m m') : m'.entries = m.entries.map (Prod.map key value) := by
  have hreverse : m'.stored = m.stored.map (Prod.map key value) := by
    refine eq_of_mem_iff m'.descending ?_ fun e ↦ ?_
    · exact List.pairwise_map.mpr (m.descending.imp fun hlt ↦ hkey _ _ hlt)
    · rw [← mem_entries, h e, entries, List.map_reverse, List.mem_reverse]
  rw [entries, entries, hreverse, List.map_reverse]

end SortedMap

/-! ## Indices whose keys move -/

namespace FrameEntry

variable {es : List FrameEntry} {c : Cie}

/-- Among entries of different records the last CIE at an offset is the only one. -/
theorem lastCie?_of_mem (h : es.Pairwise fun a b ↦ a.offset < b.offset) (hc : .cie c ∈ es) :
    lastCie? c.offset es = some c := by
  have hmem : c ∈ es.filterMap (cieAt? c.offset) :=
    List.mem_filterMap.mpr ⟨.cie c, hc, cieAt?_eq_some_iff.mpr ⟨rfl, rfl⟩⟩
  obtain ⟨c', hlast⟩ := Option.isSome_iff_exists.mp
    (List.getLast?_isSome.mpr (List.ne_nil_of_mem hmem))
  obtain ⟨hc', hoffset⟩ := mem_of_lastCie? hlast
  have hnodup : (es.map offset).Nodup :=
    List.pairwise_map.mpr (h.imp fun hlt ↦ Nat.ne_of_lt hlt)
  have hsame : FrameEntry.cie c' = .cie c := List.inj_on_of_nodup_map hnodup hc' hc hoffset
  cases hsame
  exact hlast

end FrameEntry

namespace Fde

variable {f : Fde}

theorem relocated_zero : f.relocated 0 = f := by
  rw [relocated, UInt64.add_zero, UInt64.add_zero]

theorem length_relocated (ε : UInt64) : (f.relocated ε).length = f.length := by
  change f.stop + ε - (f.start + ε) = f.stop - f.start
  rw [UInt64.sub_eq_iff_eq_add, ← UInt64.add_assoc, UInt64.sub_add_cancel]

end Fde

namespace FrameIndex

variable {δ : Nat} {ε shift : UInt64} {index index' : FrameIndex}

theorem rekeyed_cies_addAll (h : SortedMap.Rekeyed (· + δ) (Cie.moved δ) index.cies index'.cies)
    (es : List FrameEntry) :
    SortedMap.Rekeyed (· + δ) (Cie.moved δ) (index.addAll es).cies
      (index'.addAll (es.map (FrameEntry.displaced δ ε))).cies := by
  induction es generalizing index index' with
  | nil => exact h
  | cons e es ih =>
    rw [List.map_cons, addAll_cons, addAll_cons]
    refine ih ?_
    cases e with
    | cie c => exact h.insert (fun _ _ ↦ Nat.add_right_cancel) c.offset c
    | fde f => exact h

theorem rekeyed_fdes_addAll
    (h : SortedMap.Rekeyed (· + shift) (fun f ↦ (f.moved δ).relocated shift) index.fdes index'.fdes)
    {es : List FrameEntry} (hes : ∀ f, .fde f ∈ es → f.slide ε = shift) :
    SortedMap.Rekeyed (· + shift) (fun f ↦ (f.moved δ).relocated shift) (index.addAll es).fdes
      (index'.addAll (es.map (FrameEntry.displaced δ ε))).fdes := by
  induction es generalizing index index' with
  | nil => exact h
  | cons e es ih =>
    rw [List.map_cons, addAll_cons, addAll_cons]
    refine ih ?_ fun f hf ↦ hes f (List.mem_cons_of_mem e hf)
    cases e with
    | cie c => exact h
    | fde f =>
      have hinsert := h.insert (fun _ _ ↦ (UInt64.add_left_inj shift).mp) f.start f
      rw [FrameEntry.displaced, Fde.displaced, hes f List.mem_cons_self]
      exact hinsert

/-- **A section decoded elsewhere**: the pass ends in the same way and leaves the same CIEs, moved
along, and the same FDEs if the addresses of all that it decodes change alike. -/
theorem decodeFrom_moved {context context' : FrameContext} (h : context.Displaced δ ε context')
    (kind : FrameSection) (bytes : List UInt8) (hbytes : δ = 0 ∨ δ + bytes.length ≤ 2 ^ 64) :
    (((empty kind).decodeFrom context' ⟨δ, bytes⟩).value.1 =
        ((empty kind).decodeInto context bytes).value.1.mapError (Error.moved δ)) ∧
      SortedMap.Rekeyed (· + δ) (Cie.moved δ) ((empty kind).decodeInto context bytes).value.2.cies
        ((empty kind).decodeFrom context' ⟨δ, bytes⟩).value.2.cies ∧
      ∀ shift, (∀ f, .fde f ∈ (Transcript.ofSection context bytes (empty kind)).entries →
          f.slide ε = shift) →
        SortedMap.Rekeyed (· + shift) (fun f ↦ (f.moved δ).relocated shift)
          ((empty kind).decodeInto context bytes).value.2.fdes
          ((empty kind).decodeFrom context' ⟨δ, bytes⟩).value.2.fdes := by
  have hspan : (⟨δ, bytes⟩ : Span) = Span.moved δ ⟨0, bytes⟩ := by
    rw [Span.moved, Nat.zero_add]
  have hstop : δ = 0 ∨ (⟨0, bytes⟩ : Span).stop + δ ≤ 2 ^ 64 := by
    rwa [Span.stop, Nat.zero_add, Nat.add_comm]
  have hempty : (empty kind).Moved δ (empty kind) := fun _ ↦ rfl
  obtain ⟨hentries, hending⟩ := Transcript.ofSpan_moved h hstop hempty
  rw [← hspan] at hentries hending
  rw [value_decodeInto_eq, value_decodeFrom_eq, hentries, hending]
  refine ⟨rfl, rekeyed_cies_addAll SortedMap.Rekeyed.empty _, fun shift hshift ↦ ?_⟩
  exact rekeyed_fdes_addAll SortedMap.Rekeyed.empty hshift

/-! ## Further on -/

/-- **Behind zeros a section is decoded as it would be at a base that is as much higher**, as long
as its offsets have 64 bits: both passes end in the same way, and all that moves is where records
stand. -/
theorem decodeInto_zeros_append (kind : FrameSection) (base : UInt64) (addressSize : UInt8)
    (n : Nat) (bytes : List UInt8) (h : 4 * n + bytes.length ≤ 2 ^ 64) :
    let behind := ((empty kind).decodeInto ⟨.ehFrame, base, addressSize⟩
      (List.replicate (4 * n) 0 ++ bytes)).value
    let alone := ((empty kind).decodeInto ⟨.ehFrame, base + UInt64.ofNat (4 * n), addressSize⟩
      bytes).value
    behind.1 = alone.1.mapError (Error.moved (4 * n)) ∧
      behind.2.cies.entries = alone.2.cies.entries.map
        (fun e ↦ (e.1 + 4 * n, e.2.moved (4 * n))) ∧
      behind.2.fdes.entries = alone.2.fdes.entries.map fun e ↦ (e.1, e.2.moved (4 * n)) := by
  have hdisplaced : FrameContext.Displaced (4 * n) 0
      ⟨.ehFrame, base + UInt64.ofNat (4 * n), addressSize⟩ ⟨.ehFrame, base, addressSize⟩ :=
    ⟨rfl, rfl, (UInt64.add_zero _).symm, Or.inl rfl⟩
  have hslide : ∀ f : Fde, f.slide 0 = 0 := fun f ↦ ite_self 0
  obtain ⟨hending, hcies, hfdes⟩ := decodeFrom_moved hdisplaced kind bytes (Or.inr h)
  have hfdes := hfdes 0 fun f _ ↦ hslide f
  simp only [UInt64.add_zero, Fde.relocated_zero] at hfdes
  intro behind alone
  have hbehind : behind = ((empty kind).decodeFrom ⟨.ehFrame, base, addressSize⟩
      ⟨0 + 4 * n, bytes⟩).value := decodeFrom_zeros rfl (empty kind) n 0 bytes
  rw [hbehind, Nat.zero_add]
  refine ⟨hending, hcies.entries_eq fun a b hlt ↦ ?_, hfdes.entries_eq fun a b hlt ↦ hlt⟩
  exact Nat.add_lt_add_right hlt _

theorem decodeInto_zeros_append_belowPlace :
    4 * 1 + (belowPlace ⟨0x1b⟩).length ≤ 2 ^ 64 ∧
      ((empty .ehFrame).decodeInto ⟨.ehFrame, 0x1ffc, 4⟩
          (List.replicate (4 * 1) 0 ++ belowPlace ⟨0x1b⟩)).value.1 = .ok () ∧
      ((empty .ehFrame).decodeInto ⟨.ehFrame, 0x1ffc, 4⟩
          (List.replicate (4 * 1) 0 ++ belowPlace ⟨0x1b⟩)).value.2.cies.entries =
        [(4, (relativeCie ⟨0x1b⟩).moved 4)] ∧
      ((empty .ehFrame).decodeInto ⟨.ehFrame, 0x1ffc, 4⟩
          (List.replicate (4 * 1) 0 ++ belowPlace ⟨0x1b⟩)).value.2.fdes.entries =
        [(0x1000, ⟨21, (relativeCie ⟨0x1b⟩).moved 4, 0x1000, 0x1020, false, []⟩)] := by
  have hlength : 4 * 1 + (belowPlace ⟨0x1b⟩).length ≤ 2 ^ 64 := by decide
  have hbase : (0x1ffc : UInt64) + UInt64.ofNat (4 * 1) = 0x2000 := by decide
  have hending : ((empty .ehFrame).decodeInto ⟨.ehFrame, 0x2000, 4⟩
      (belowPlace ⟨0x1b⟩)).value.1 = .ok () := by cbv
  have hcies : ((empty .ehFrame).decodeInto ⟨.ehFrame, 0x2000, 4⟩
      (belowPlace ⟨0x1b⟩)).value.2.cies.entries = [(0, relativeCie ⟨0x1b⟩)] := by cbv
  have hfdes : ((empty .ehFrame).decodeInto ⟨.ehFrame, 0x2000, 4⟩
      (belowPlace ⟨0x1b⟩)).value.2.fdes.entries =
        [(0x1000, ⟨17, relativeCie ⟨0x1b⟩, 0x1000, 0x1020, false, []⟩)] := by cbv
  obtain ⟨hend, hkeptCies, hkeptFdes⟩ :=
    decodeInto_zeros_append .ehFrame 0x1ffc 4 1 (belowPlace ⟨0x1b⟩) hlength
  rw [hbase, hending] at hend
  rw [hbase, hcies] at hkeptCies
  rw [hbase, hfdes] at hkeptFdes
  exact ⟨hlength, hend, hkeptCies, hkeptFdes⟩

/-! ## Mapped elsewhere -/

/-- In a pass into an empty index every FDE that is decoded has a CIE that the index keeps, also
where the FDE itself does not stay. -/
theorem cie?_of_mem_ofSection {context : FrameContext} {kind : FrameSection} {bytes : List UInt8}
    {f : Fde} (hf : .fde f ∈ (Transcript.ofSection context bytes (empty kind)).entries) :
    ((empty kind).decodeInto context bytes).value.2.cie? f.cie.offset = some f.cie := by
  have hfollow := Transcript.follow_ofSpan context ⟨0, bytes⟩ (empty kind)
  obtain ⟨-, hascending⟩ := Transcript.ascending_ofSpan context ⟨0, bytes⟩ (empty kind)
  have hmem : .cie f.cie ∈ (Transcript.ofSection context bytes (empty kind)).entries := by
    obtain ⟨front, d, back, target, hsplit, -, -, hfound⟩ := hfollow.exists_reference hf
    rw [cie?_addAll, cie?_empty, Option.or_none] at hfound
    obtain ⟨hfront, -⟩ := FrameEntry.mem_of_lastCie? hfound
    rw [Transcript.ofSection, Transcript.entries, hsplit, DecodedRecord.entries_append]
    exact List.mem_append_left _ hfront
  rw [value_decodeInto_eq, cie?_addAll, Transcript.ofSection,
    FrameEntry.lastCie?_of_mem hascending hmem, Option.some_or]

/-- **A section mapped elsewhere** by `d` is decoded with the same success or failure to the same
CIEs. If their FDEs have addresses relative to their own place, all of these move by `d`, and if
none has, nothing changes. -/
theorem decodeInto_rebase (kind : FrameSection) (context : FrameContext) (bytes : List UInt8)
    (d : UInt64) :
    let here := ((empty kind).decodeInto context bytes).value
    let there := ((empty kind).decodeInto { context with base := context.base + d } bytes).value
    there.1 = here.1 ∧ there.2.cies = here.2.cies ∧
      ((∀ offset cie, here.2.cie? offset = some cie → cie.addressEncoding.isPcRelative = true) →
        there.2.fdes.entries.Perm
            (here.2.fdes.entries.map fun e ↦ (e.1 + d, e.2.relocated d)) ∧
          ∀ f : Fde, (f.relocated d).length = f.length) ∧
      ((∀ offset cie, here.2.cie? offset = some cie → cie.addressEncoding.isPcRelative = false) →
        there.2.fdes = here.2.fdes) := by
  have hdisplaced : context.Displaced 0 d { context with base := context.base + d } :=
    ⟨rfl, rfl, UInt64.add_zero _, Or.inr rfl⟩
  obtain ⟨hending, hcies, hfdes⟩ := decodeFrom_moved hdisplaced kind bytes (Or.inl rfl)
  intro here there
  refine ⟨?ending, SortedMap.Rekeyed.eq hcies, fun hall ↦ ⟨?relative, ?lengths⟩,
    fun hnone ↦ ?absolute⟩
  case ending =>
    change there.1 = here.1.mapError (Error.moved 0) at hending
    rw [hending]
    cases here.1 with
    | error e => exact congrArg Except.error e.moved_zero
    | ok u => rfl
  case relative =>
    refine (hfdes d fun f hf ↦ ?_).perm fun _ _ ↦ (UInt64.add_left_inj d).mp
    have hrelative : f.addressEncoding.isPcRelative = true := hall _ _ (cie?_of_mem_ofSection hf)
    rw [Fde.slide, if_pos hrelative]
  case lengths =>
    exact fun f ↦ f.length_relocated d
  case absolute =>
    have hstill := hfdes 0 fun f hf ↦ by
      have habsolute : f.addressEncoding.isPcRelative = false :=
        hnone _ _ (cie?_of_mem_ofSection hf)
      rw [Fde.slide, habsolute, if_neg Bool.false_ne_true]
    simp only [UInt64.add_zero, Fde.relocated_zero] at hstill
    exact SortedMap.Rekeyed.eq hstill

/-- Addresses relative to their own place move with the section, and others stay. -/
theorem decodeInto_rebase_belowPlace :
    let relative (base : UInt64) :=
      ((empty .ehFrame).decodeInto ⟨.ehFrame, base, 4⟩ (belowPlace ⟨0x1b⟩)).value
    let absolute (base : UInt64) :=
      ((empty .ehFrame).decodeInto ⟨.ehFrame, base, 8⟩ (plainCie .ehFrame ++ fdeBehind)).value
    (relative 0x2000).2.fdes.keys = [0x1000] ∧ (relative 0x2800).1 = .ok () ∧
      (relative 0x2800).2.cies = (relative 0x2000).2.cies ∧
      (relative 0x2800).2.fdes.entries.Perm
        ((relative 0x2000).2.fdes.entries.map fun e ↦ (e.1 + 0x800, e.2.relocated 0x800)) ∧
      (absolute 0x2000).2.fdes.keys = [0x4000] ∧
      (absolute 0x2800).2.fdes = (absolute 0x2000).2.fdes := by
  intro relative absolute
  have hrelative : ∀ e ∈ (relative 0x2000).2.cies.entries,
      e.2.addressEncoding.isPcRelative = true := by decide +kernel
  have habsolute : ∀ e ∈ (absolute 0x2000).2.cies.entries,
      e.2.addressEncoding.isPcRelative = false := by decide +kernel
  obtain ⟨hending, hcies, hmoved, -⟩ :=
    decodeInto_rebase .ehFrame ⟨.ehFrame, 0x2000, 4⟩ (belowPlace ⟨0x1b⟩) 0x800
  obtain ⟨-, -, -, hstill⟩ :=
    decodeInto_rebase .ehFrame ⟨.ehFrame, 0x2000, 8⟩ (plainCie .ehFrame ++ fdeBehind) 0x800
  refine ⟨by decide +kernel, hending.trans (by decide +kernel), hcies,
    (hmoved fun offset cie h ↦ hrelative _ (SortedMap.get?_eq_some_iff.mp h)).1,
    by decide +kernel, hstill fun offset cie h ↦ habsolute _ (SortedMap.get?_eq_some_iff.mp h)⟩

end FrameIndex

end ElfUnwind
