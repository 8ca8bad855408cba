import ElfUnwind.Proofs.Transcripts

/-!
# Many passes into one index

An index may be filled by any number of passes, over sections of either kind and with failures in
between. It grows by the records of all of them as by those of one: what it holds under a key is
what was decoded last (`FrameIndex.decodePasses_history`).

An FDE keeps the CIE that it was decoded with. A later pass may put another CIE at the same offset,
which is then used by the FDEs that come after it.
-/

namespace ElfUnwind

/-- A section, and what its decoding depends on. -/
structure FramePass where
  /-- What the decoding depends on besides the bytes. -/
  context : FrameContext
  /-- The section. -/
  bytes : List UInt8

namespace FrameIndex

open DecodedRecord (entries Follow)

variable {index : FrameIndex} {passes before after : List FramePass}

/-- The index after passes, however each of them ends. -/
def decodePasses (index : FrameIndex) (passes : List FramePass) : FrameIndex :=
  passes.foldl (fun index p ↦ (index.decodeInto p.context p.bytes).value.2) index

/-- The records that passes decode, in their order. -/
def passRecords (index : FrameIndex) : List FramePass → List DecodedRecord
  | [] => []
  | p :: ps => (Transcript.ofSection p.context p.bytes index).records ++
      passRecords (index.decodeInto p.context p.bytes).value.2 ps

theorem decodePasses_append :
    index.decodePasses (before ++ after) = (index.decodePasses before).decodePasses after :=
  List.foldl_append

/-- Passes add the entries of their records. -/
theorem decodePasses_eq (index : FrameIndex) (passes : List FramePass) :
    index.decodePasses passes = index.addAll (entries (index.passRecords passes)) := by
  induction passes generalizing index with
  | nil => rfl
  | cons p ps ih =>
    rw [passRecords, DecodedRecord.entries_append, addAll_append]
    rw [decodePasses, List.foldl_cons, ← decodePasses, ih, value_decodeInto_eq]
    rfl

theorem follow_passRecords (index : FrameIndex) (passes : List FramePass) :
    Follow index (index.passRecords passes) := by
  induction passes generalizing index with
  | nil => exact .nil index
  | cons p ps ih =>
    have hrest := ih (index.decodeInto p.context p.bytes).value.2
    rw [passRecords]
    rw [value_decodeInto_eq] at hrest ⊢
    exact (Transcript.follow_ofSpan p.context ⟨0, p.bytes⟩ index).append hrest

/-- No entry takes a key away. -/
theorem isSome_addAll (es : List FrameEntry) :
    (∀ offset, (index.cie? offset).isSome → ((index.addAll es).cie? offset).isSome) ∧
      ∀ start, (index.fde? start).isSome → ((index.addAll es).fde? start).isSome := by
  constructor
  · intro offset h
    rw [cie?_addAll, Option.isSome_or, h, Bool.or_true]
  · intro start h
    rw [fde?_addAll, Option.isSome_or, h, Bool.or_true]

/-- **Passes into one index grow it by one history.** Each record of it was decoded with what those
before it had left. No key is ever lost, under each key stands what was decoded last, and an FDE has
the CIE that stood at its reference when it was decoded, whatever stands there now. -/
theorem decodePasses_history (index : FrameIndex) (passes : List FramePass) :
    Follow index (index.passRecords passes) ∧
      index.decodePasses passes = index.addAll (entries (index.passRecords passes)) ∧
      (∀ offset, (index.decodePasses passes).cie? offset =
        (FrameEntry.lastCie? offset (entries (index.passRecords passes))).or
          (index.cie? offset)) ∧
      (∀ start, (index.decodePasses passes).fde? start =
        (FrameEntry.lastFde? start (entries (index.passRecords passes))).or
          (index.fde? start)) ∧
      (∀ start fde, (index.decodePasses passes).fde? start = some fde →
        index.fde? start = some fde ∨
          ∃ front d back target, index.passRecords passes = front ++ d :: back ∧
            d.entry = .fde fde ∧ d.record.RefersTo d.context target ∧
            (index.addAll (entries front)).cie? target.toNat = some fde.cie) ∧
      (∀ before after, passes = before ++ after →
        (∀ offset, ((index.decodePasses before).cie? offset).isSome →
          ((index.decodePasses passes).cie? offset).isSome) ∧
        ∀ start, ((index.decodePasses before).fde? start).isSome →
          ((index.decodePasses passes).fde? start).isSome) ∧
      (index.decodePasses passes).kind = index.kind ∧
      (index.decodePasses passes).isComplete = index.isComplete := by
  have hfollow := follow_passRecords index passes
  have hall := decodePasses_eq index passes
  have hfde : ∀ start, (index.decodePasses passes).fde? start =
      (FrameEntry.lastFde? start (entries (index.passRecords passes))).or (index.fde? start) := by
    intro start
    rw [hall, fde?_addAll]
  refine ⟨hfollow, hall, fun offset ↦ by rw [hall, cie?_addAll], hfde, ?moment, ?keys, ?_⟩
  case moment =>
    intro start fde h
    rw [hfde] at h
    rcases Option.or_eq_some_iff.mp h with hlast | ⟨-, hold⟩
    · obtain ⟨hmem, -⟩ := FrameEntry.mem_of_lastFde? hlast
      exact Or.inr (hfollow.exists_reference hmem)
    · exact Or.inl hold
  case keys =>
    rintro before after rfl
    rw [decodePasses_append, decodePasses_eq (index.decodePasses before) after]
    exact isSome_addAll _
  · rw [hall]
    exact addAll_eq _

/-- The second pass puts a CIE for smaller addresses where the FDE of the first has found its own,
and that FDE stays, with the CIE that stood there when it was decoded. -/
theorem decodePasses_history_replacedCie :
    let first : FramePass := ⟨⟨.ehFrame, 0, 8⟩, plainCie .ehFrame ++ fdeBehind⟩
    let second : FramePass := ⟨⟨.ehFrame, 0, 4⟩, plainCie .ehFrame⟩
    let index := (empty .ehFrame).decodePasses [first, second]
    (index.cie? 0).map Cie.addressSize = some 4 ∧
      (((empty .ehFrame).decodePasses [first]).fde? 0x4000).isSome ∧
      ∃ fde, index.fde? 0x4000 = some fde ∧ fde.cie.addressSize = 8 ∧
        ∃ front d back target,
          (empty .ehFrame).passRecords [first, second] = front ++ d :: back ∧
          d.entry = .fde fde ∧ d.record.RefersTo d.context target ∧
          ((empty .ehFrame).addAll (entries front)).cie? target.toNat = some fde.cie := by
  intro first second index
  obtain ⟨-, -, -, -, hmoment, hkeys, -⟩ := decodePasses_history (empty .ehFrame) [first, second]
  have hcie : (index.cie? 0).map Cie.addressSize = some 4 := by decide +kernel
  have hfirst : (((empty .ehFrame).decodePasses [first]).fde? 0x4000).isSome := by decide +kernel
  have hsize : (index.fde? 0x4000).map (·.cie.addressSize) = some 8 := by decide +kernel
  obtain ⟨fde, hfde⟩ := Option.isSome_iff_exists.mp ((hkeys [first] [second] rfl).2 0x4000 hfirst)
  have hfde8 : fde.cie.addressSize = 8 := by
    rw [show index.fde? 0x4000 = some fde from hfde] at hsize
    exact Option.some.inj hsize
  refine ⟨hcie, hfirst, fde, hfde, hfde8, (hmoment 0x4000 fde hfde).resolve_left ?_⟩
  rintro ⟨⟩

end FrameIndex

end ElfUnwind
