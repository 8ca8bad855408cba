import ElfUnwind.Proofs.TwoStages

/-!
# References of decoded entries

An FDE names the CIE it belongs to by a number from its record, which may be anything, so the
subtraction that turns it into an offset may wrap around. Whatever a section holds, an FDE that is
decoded has a CIE that stands before it and is still in the index at the offset it names
(`FrameIndex.decodeInto_linked`).

## The invariant

Everything in the index comes from a record before the one that is decoded next. A reference to that
record or further on therefore finds nothing, and a CIE that is added replaces none.
-/

namespace ElfUnwind

open BodyDecoder
open Read (Yields)

/-- There is a pointer, and its format is one of the nine. -/
def PointerEncoding.IsDefined (e : PointerEncoding) : Prop :=
  e ≠ omitted ∧ ∃ format, e.format? = some format

/-! ## What a decoded CIE is -/

/-- The letters that stand for augmentation data. -/
def IsAugmentationLetter (letter : Char) : Prop := letter = 'R' ∨ letter = 'P' ∨ letter = 'L'

/-- The data after some letters: what none of them stands for is as it was before. -/
structure AugmentationData.Leads (before : AugmentationData) (letters : List Char)
    (after : AugmentationData) : Prop where
  known : ∀ l ∈ letters, IsAugmentationLetter l
  address : 'R' ∉ letters → after.address = before.address
  lsda : 'L' ∉ letters → after.lsda = before.lsda

theorem AugmentationData.Leads.cons {before middle after : AugmentationData} {l : Char}
    {ls : List Char} (h : before.Leads [l] middle) (hs : middle.Leads ls after) :
    before.Leads (l :: ls) after where
  known := List.forall_mem_cons.mpr ⟨h.known l List.mem_cons_self, hs.known⟩
  address := by
    intro hnot
    rw [List.mem_cons, not_or] at hnot
    rw [hs.address hnot.2, h.address (by simpa using hnot.1)]
  lsda := by
    intro hnot
    rw [List.mem_cons, not_or] at hnot
    rw [hs.lsda hnot.2, h.lsda (by simpa using hnot.1)]

namespace Cie

/-- The augmentation string is understood, and what a CIE does not declare has its default. -/
structure IsUnderstood (addressSize : UInt8) (c : Cie) : Prop where
  /-- The augmentation string is empty, or a `z` and known letters. -/
  augmentation : c.augmentation = "" ∨
    ∃ letters, c.augmentation.toList = 'z' :: letters ∧ ∀ l ∈ letters, IsAugmentationLetter l
  /-- FDEs with a pointer to language-specific data give the length of their augmentation data. -/
  hasLength : c.hasLsda = true → c.hasAugmentationData = true
  /-- An encoding of addresses that is not declared. -/
  address : 'R' ∉ c.augmentation.toList → c.addressEncoding = .absptr
  /-- An encoding of pointers to language-specific data that is not declared. -/
  lsda : 'L' ∉ c.augmentation.toList → c.lsdaEncoding = ⟨0⟩
  /-- A size of addresses that is not declared. -/
  size : c.version < 4 → c.addressSize = addressSize

variable {context : FrameContext} {offset : Nat} {isWide : Bool}

theorem yields_letterData (addressSize : UInt8) (malformed : Error) (data : AugmentationData)
    (letter : Char) :
    (silent (letterData addressSize malformed data letter)).Yields (data.Leads [letter]) := by
  rw [silent_letterData]
  refine Yields.ite ?address fun _ ↦ Yields.ite ?personality fun _ ↦ Yields.ite ?lsda ?other
  case address =>
    rintro rfl
    refine Yields.bind fun encoding ↦ Yields.pure ⟨?_, ?_, fun _ ↦ rfl⟩
    · exact List.forall_mem_singleton.mpr (Or.inl rfl)
    · exact fun hnot ↦ absurd List.mem_cons_self hnot
  case personality =>
    rintro rfl
    refine Yields.bind fun encoding ↦ Yields.bind fun value ↦ ?_
    refine Yields.pure ⟨?_, fun _ ↦ rfl, fun _ ↦ rfl⟩
    exact List.forall_mem_singleton.mpr (Or.inr (Or.inl rfl))
  case lsda =>
    rintro rfl
    refine Yields.bind fun encoding ↦ Yields.pure ⟨?_, fun _ ↦ rfl, ?_⟩
    · exact List.forall_mem_singleton.mpr (Or.inr (Or.inr rfl))
    · exact fun hnot ↦ absurd List.mem_cons_self hnot
  case other =>
    exact fun _ ↦ Yields.throw malformed _

theorem yields_letters (addressSize : UInt8) (malformed : Error) (letters : List Char)
    (data : AugmentationData) :
    (letters.foldlM (fun data l ↦ silent (letterData addressSize malformed data l)) data).Yields
      (data.Leads letters) := by
  induction letters generalizing data with
  | nil => exact Yields.pure ⟨fun _ h ↦ absurd h List.not_mem_nil, fun _ ↦ rfl, fun _ ↦ rfl⟩
  | cons l ls ih =>
    rw [List.foldlM_cons]
    refine Yields.bind_of (yields_letterData addressSize malformed data l) fun middle hl ↦ ?_
    exact fun s t after hr ↦ hl.cons (ih middle s t after hr)

theorem yields_augmentationData (addressSize : UInt8) (malformed : Error) {augmentation : String}
    (h : isAugmentation augmentation = true) :
    (silent (augmentationData addressSize malformed augmentation)).Yields fun data ↦
      (augmentation = "" ∨
        ∃ letters, augmentation.toList = 'z' :: letters ∧
          ∀ l ∈ letters, IsAugmentationLetter l) ∧
      ('R' ∉ augmentation.toList → data.address = .absptr) ∧
      ('L' ∉ augmentation.toList → data.lsda = ⟨0⟩) := by
  rw [silent_augmentationData]
  refine Yields.ite (fun hhead ↦ ?_) fun hhead ↦ ?_
  · obtain ⟨letters, hletters⟩ := List.head?_eq_some_iff.mp hhead
    rw [hletters, List.tail_cons]
    refine Yields.bind fun length s t data hr ↦ ?_
    obtain ⟨hknown, haddress, hlsda⟩ := yields_letters addressSize malformed letters {} s t data hr
    refine ⟨Or.inr ⟨letters, rfl, hknown⟩, fun hnot ↦ haddress ?_, fun hnot ↦ hlsda ?_⟩
    · exact fun hmem ↦ hnot (List.mem_cons_of_mem _ hmem)
    · exact fun hmem ↦ hnot (List.mem_cons_of_mem _ hmem)
  · refine Yields.pure ⟨Or.inl ?_, fun _ ↦ rfl, fun _ ↦ rfl⟩
    simp only [isAugmentation, Bool.or_eq_true, List.isEmpty_iff, decide_eq_true_eq] at h
    exact String.toList_eq_nil_iff.mp (h.resolve_right hhead)

theorem yields_checkAugmentation (malformed : Error) (augmentation : String) :
    (silent (checkAugmentation malformed augmentation)).Yields fun _ ↦
      isAugmentation augmentation = true := by
  rw [checkAugmentation, silent_ite]
  exact Yields.ite (fun h ↦ Yields.pure h) fun _ ↦ Yields.throw malformed _

theorem yields_declaredSize (version : UInt8) :
    (silent (declaredSize context version)).Yields fun size ↦
      version < 4 → size = context.addressSize := by
  rw [silent_declaredSize]
  refine Yields.ite (fun h ↦ ?_) fun _ ↦ Yields.pure fun _ ↦ rfl
  refine Yields.bind fun addressSize ↦ Yields.bind fun segmentSize ↦ Yields.pure fun hlt ↦ ?_
  exact absurd h (UInt8.not_le.mpr hlt)

theorem yields_fields_isUnderstood :
    (silent (fields context offset isWide)).Yields (IsUnderstood context.addressSize) := by
  rw [silent_fields]
  refine Yields.bind fun version ↦ Yields.bind fun text ↦ ?_
  refine Yields.bind_of (yields_checkAugmentation _ _) fun _ hcheck ↦ ?_
  refine Yields.bind_of (yields_declaredSize version) fun addressSize hsize ↦ ?_
  refine Yields.bind fun codeAlignment ↦ Yields.bind fun dataAlignment ↦ ?_
  refine Yields.bind fun register ↦ ?_
  refine Yields.bind_of (yields_augmentationData _ _ hcheck) fun data hdata ↦ Yields.pure ?_
  obtain ⟨haugmentation, haddress, hlsda⟩ := hdata
  refine ⟨haugmentation, fun h ↦ ?_, haddress, hlsda, hsize⟩
  rcases haugmentation with hempty | ⟨letters, hletters, -⟩
  · -- No letter declares the pointer, so its encoding is the default, which stands for none.
    have hnone : data.lsda = ⟨0⟩ := hlsda (by rw [hempty]; exact List.not_mem_nil)
    simp [hasLsda, hnone] at h
  · simp [hasAugmentationData, hletters]

end Cie

/-! ## What a decoded FDE is -/

namespace Fde

variable {context : FrameContext} {offset : Nat} {isWide : Bool}

theorem yields_pointer (encoding : PointerEncoding) (addressSize : UInt8) :
    (silent (pointer encoding addressSize)).Yields fun _ ↦ encoding.IsDefined := by
  intro s t a hr
  rw [silent_pointer] at hr
  obtain ⟨value, u, hread, hvalue⟩ := Read.bind_eq_ok_iff.mp hr
  by_cases homitted : encoding = .omitted
  · -- Nothing is read, and a pointer that is not there is refused.
    rw [homitted, PointerEncoding.read_omitted] at hread
    cases hread
    cases hvalue
  · refine ⟨homitted, ?_⟩
    cases hformat : encoding.format? with
    | some format => exact ⟨format, rfl⟩
    | none =>
      simp only [PointerEncoding.read, if_neg homitted, hformat] at hread
      cases hread

theorem yields_fields_isDefined (cie : Cie) :
    (silent (fields context offset isWide cie)).Yields fun fde ↦
      fde.cie = cie ∧ fde.addressEncoding.IsDefined := by
  rw [silent_fields]
  refine Yields.bind fun location ↦ ?_
  refine Yields.bind_of (yields_pointer _ _) fun initial hdefined ↦ Yields.bind fun length ↦ ?_
  exact Yields.bind fun _ ↦ Yields.bind fun _ ↦ Yields.pure ⟨rfl, hdefined⟩

end Fde

/-! ## What a record refers to -/

namespace RawRecord

variable {context : FrameContext} {index grown : FrameIndex} {r : RawRecord} {target : UInt64}

/-- The record is that of an FDE, whose identifier stands for a CIE at `target`. -/
def RefersTo (context : FrameContext) (r : RawRecord) (target : UInt64) : Prop :=
  ∃ id s, readId r.isWide r.body = .ok (id, s) ∧ id ≠ context.kind.cieId ∧
    context.kind.cieOffset r.body.offset id = target

/-- What a record adds, with where it refers to. -/
theorem linked_of_outcome (h : r.outcome context index = .ok grown) :
    (∃ cie, cie.offset = r.offset ∧ cie.IsUnderstood context.addressSize ∧
        grown = index.insertCie cie) ∨
      (∃ fde target, fde.offset = r.offset ∧ fde.addressEncoding.IsDefined ∧
        r.RefersTo context target ∧ index.cie? target.toNat = some fde.cie ∧
        grown = index.insertFde fde) := by
  obtain ⟨id, s, hid, hentry⟩ := outcome_eq_ok_iff.mp h
  rcases hentry with ⟨-, head, t, hfields, rfl⟩ | ⟨hne, cie, head, t, hfound, hfields, rfl⟩
  · obtain ⟨haugmentation, hlength, haddress, hlsda, hsize⟩ :=
      Cie.yields_fields_isUnderstood s t head hfields
    exact Or.inl ⟨{ head with instructions := t.bytes }, Cie.yields_fields s t head hfields,
      ⟨haugmentation, hlength, haddress, hlsda, hsize⟩, rfl⟩
  · obtain ⟨rfl, hdefined⟩ := Fde.yields_fields_isDefined cie s t head hfields
    exact Or.inr ⟨{ head with instructions := t.bytes }, _, Fde.yields_fields _ s t head hfields,
      hdefined, ⟨id, s, hid, hne, rfl⟩, hfound, rfl⟩

theorem outcome_of_refersTo (h : r.RefersTo context target)
    (hnone : index.cie? target.toNat = none) :
    r.outcome context index = .error (.unknownCie r.offset target) := by
  obtain ⟨id, s, hid, hne, rfl⟩ := h
  rw [outcome, value_runOn, silent_decode, Read.bind_of_ok hid, decodeEntry, if_neg hne]
  simp only [hnone]
  rfl

/-- An FDE has an identifier, so its record is no length of zero. -/
theorem RefersTo.ne_nil (h : r.RefersTo context target) : r.body.bytes ≠ [] := by
  obtain ⟨id, s, hid, -⟩ := h
  intro hnil
  obtain ⟨value, t, hvalue, -⟩ := Read.bind_eq_ok_iff.mp hid
  have hlt := Framing.length_lt_of_unsigned hvalue
  rw [hnil] at hlt
  exact absurd hlt (Nat.not_lt_zero _)

end RawRecord

/-! ## Every reference goes back -/

namespace FrameIndex

variable {context : FrameContext} {bytes : List UInt8} {p : Piece} {ps front : List Piece}
  {index grown : FrameIndex} {stop : Nat}

/-- The entries of the index are those of different records among the pieces, and every FDE has the
CIE of the index that its record refers to, which stands before it. -/
structure Linked (context : FrameContext) (bytes : List UInt8) (ps : List Piece)
    (index : FrameIndex) : Prop where
  /-- The CIEs. -/
  cies : ∀ offset cie, index.cie? offset = some cie →
    cie.offset = offset ∧ (∃ p ∈ ps, p.offset = offset) ∧ cie.IsUnderstood context.addressSize
  /-- The FDEs. -/
  fdes : ∀ start fde, index.fde? start = some fde →
    fde.start = start ∧ fde.addressEncoding.IsDefined ∧
      index.cie? fde.cie.offset = some fde.cie ∧ fde.cie.offset < fde.offset ∧
      ∃ p ∈ ps, p.offset = fde.offset ∧
        ∃ target, (p.record bytes).RefersTo context target ∧ target.toNat = fde.cie.offset
  /-- No record is both. -/
  apart : ∀ offset cie start fde, index.cie? offset = some cie → index.fde? start = some fde →
    offset ≠ fde.offset
  /-- No record is there twice. -/
  once : ∀ start₁ start₂ fde₁ fde₂, index.fde? start₁ = some fde₁ → index.fde? start₂ = some fde₂ →
    fde₁.offset = fde₂.offset → start₁ = start₂

theorem linked_empty (context : FrameContext) (bytes : List UInt8) (kind : FrameSection) :
    Linked context bytes [] (empty kind) where
  cies := by
    intro offset cie h
    cases h
  fdes := by
    intro start fde h
    cases h
  apart := by
    intro offset cie start fde h
    cases h
  once := by
    intro start₁ start₂ fde₁ fde₂ h
    cases h

theorem Linked.mono (h : Linked context bytes ps index) {qs : List Piece} (hsub : ps ⊆ qs) :
    Linked context bytes qs index where
  cies := by
    intro offset cie hcie
    obtain ⟨hoffset, ⟨p, hp, hpo⟩, hunderstood⟩ := h.cies offset cie hcie
    exact ⟨hoffset, ⟨p, hsub hp, hpo⟩, hunderstood⟩
  fdes := by
    intro start fde hfde
    obtain ⟨hstart, hdefined, hcie, hlt, p, hp, hrefers⟩ := h.fdes start fde hfde
    exact ⟨hstart, hdefined, hcie, hlt, p, hsub hp, hrefers⟩
  apart := h.apart
  once := h.once

/-- A CIE of a record behind the others. It replaces none, so no FDE loses its own. -/
theorem Linked.insertCie (h : Linked context bytes front index)
    (hlt : ∀ q ∈ front, q.offset < p.offset) {cie : Cie} (hoffset : cie.offset = p.offset)
    (hunderstood : cie.IsUnderstood context.addressSize) :
    Linked context bytes (front ++ [p]) (index.insertCie cie) where
  cies := by
    intro offset c hc
    by_cases heq : offset = cie.offset
    · subst heq
      rw [cie?_insertCie_self] at hc
      cases hc
      exact ⟨rfl, ⟨p, List.mem_append_right _ List.mem_cons_self, hoffset.symm⟩, hunderstood⟩
    · rw [cie?_insertCie_of_ne heq] at hc
      obtain ⟨hself, ⟨q, hq, hqo⟩, hold⟩ := h.cies offset c hc
      exact ⟨hself, ⟨q, List.mem_append_left _ hq, hqo⟩, hold⟩
  fdes := by
    intro start fde hfde
    obtain ⟨hstart, hdefined, hcie, hback, q, hq, hqo, hrefers⟩ := h.fdes start fde hfde
    have hne : fde.cie.offset ≠ cie.offset := by
      have := hlt q hq
      omega
    rw [cie?_insertCie_of_ne hne]
    exact ⟨hstart, hdefined, hcie, hback, q, List.mem_append_left _ hq, hqo, hrefers⟩
  apart := by
    intro offset c start fde hc hfde
    obtain ⟨-, -, -, -, q, hq, hqo, -⟩ := h.fdes start fde hfde
    by_cases heq : offset = cie.offset
    · have := hlt q hq
      omega
    · rw [cie?_insertCie_of_ne heq] at hc
      exact h.apart offset c start fde hc hfde
  once := h.once

/-- An FDE of a record behind the others. What it refers to is in the index, so it stands before. -/
theorem Linked.insertFde (h : Linked context bytes front index)
    (hlt : ∀ q ∈ front, q.offset < p.offset) {fde : Fde} {target : UInt64}
    (hoffset : fde.offset = p.offset) (hdefined : fde.addressEncoding.IsDefined)
    (hrefers : (p.record bytes).RefersTo context target)
    (hfound : index.cie? target.toNat = some fde.cie) :
    Linked context bytes (front ++ [p]) (index.insertFde fde) where
  cies := by
    intro offset c hc
    obtain ⟨hself, ⟨q, hq, hqo⟩, hold⟩ := h.cies offset c hc
    exact ⟨hself, ⟨q, List.mem_append_left _ hq, hqo⟩, hold⟩
  fdes := by
    intro start f hf
    by_cases heq : start = fde.start
    · subst heq
      rw [fde?_insertFde_self] at hf
      cases hf
      obtain ⟨hself, ⟨q, hq, hqo⟩, -⟩ := h.cies _ _ hfound
      have hback := hlt q hq
      refine ⟨rfl, hdefined, hself.symm ▸ hfound, by omega, p, ?_, hoffset.symm, ?_⟩
      · exact List.mem_append_right _ List.mem_cons_self
      · exact ⟨target, hrefers, hself.symm⟩
    · rw [fde?_insertFde_of_ne heq] at hf
      obtain ⟨hstart, hold, hcie, hback, q, hq, hrest⟩ := h.fdes start f hf
      exact ⟨hstart, hold, hcie, hback, q, List.mem_append_left _ hq, hrest⟩
  apart := by
    intro offset c start f hc hf
    by_cases heq : start = fde.start
    · subst heq
      rw [fde?_insertFde_self] at hf
      cases hf
      obtain ⟨-, ⟨q, hq, hqo⟩, -⟩ := h.cies offset c hc
      have := hlt q hq
      omega
    · rw [fde?_insertFde_of_ne heq] at hf
      exact h.apart offset c start f hc hf
  once := by
    intro start₁ start₂ fde₁ fde₂ h₁ h₂ hsame
    have hold : ∀ start f, index.fde? start = some f → f.offset ≠ fde.offset := by
      intro start f hf
      obtain ⟨-, -, -, -, q, hq, hqo, -⟩ := h.fdes start f hf
      have := hlt q hq
      omega
    by_cases heq₁ : start₁ = fde.start
    · by_cases heq₂ : start₂ = fde.start
      · rw [heq₁, heq₂]
      · subst heq₁
        rw [fde?_insertFde_self] at h₁
        rw [fde?_insertFde_of_ne heq₂] at h₂
        cases h₁
        exact absurd hsame.symm (hold start₂ fde₂ h₂)
    · rw [fde?_insertFde_of_ne heq₁] at h₁
      by_cases heq₂ : start₂ = fde.start
      · subst heq₂
        rw [fde?_insertFde_self] at h₂
        cases h₂
        exact absurd hsame (hold start₁ fde₁ h₁)
      · rw [fde?_insertFde_of_ne heq₂] at h₂
        exact h.once start₁ start₂ fde₁ fde₂ h₁ h₂ hsame

/-- **One record keeps the references.** -/
theorem Linked.of_outcome (h : Linked context bytes front index)
    (hlt : ∀ q ∈ front, q.offset < p.offset)
    (hr : (p.record bytes).outcome context index = .ok grown) :
    Linked context bytes (front ++ [p]) grown := by
  rcases RawRecord.linked_of_outcome hr with
    ⟨cie, hoffset, hunderstood, rfl⟩ | ⟨fde, target, hoffset, hdefined, hrefers, hfound, rfl⟩
  · exact h.insertCie hlt hoffset hunderstood
  · exact h.insertFde hlt hoffset hdefined hrefers hfound

/-- **A run over pieces keeps the references**, also where a record fails. -/
theorem Linked.decodePieces (h : Linked context bytes front index)
    (htiles : Layout.Tiles 0 (front ++ ps) stop) :
    Linked context bytes (front ++ ps) (decodePieces context bytes ps index).2 := by
  induction ps generalizing front index with
  | nil => exact h.mono (List.subset_append_left front [])
  | cons p ps ih =>
    have hbehind : front ++ p :: ps = (front ++ [p]) ++ ps := by simp
    by_cases hempty : p.isEmpty = true
    · rw [decodePieces_of_isEmpty hempty, hbehind]
      exact ih (h.mono (List.subset_append_left front [p])) (hbehind ▸ htiles)
    · cases hr : (p.record bytes).outcome context index with
      | error e =>
        rw [decodePieces_of_error hempty hr]
        exact h.mono (List.subset_append_left front (p :: ps))
      | ok next =>
        rw [decodePieces_of_ok hempty hr, hbehind]
        exact ih (h.of_outcome htiles.offset_lt hr) (hbehind ▸ htiles)

/-! ## The records of the entries -/

/-- The offsets of the records of all entries. -/
def recordOffsets (index : FrameIndex) : List Nat :=
  index.cies.values.map Cie.offset ++ index.fdes.values.map Fde.offset

theorem mem_recordOffsets {offset : Nat} :
    offset ∈ index.recordOffsets ↔
      (∃ key cie, index.cie? key = some cie ∧ cie.offset = offset) ∨
        ∃ start fde, index.fde? start = some fde ∧ fde.offset = offset := by
  simp only [recordOffsets, SortedMap.values, List.map_map, List.mem_append, List.mem_map,
    Function.comp_apply, Prod.exists, cie?, fde?, SortedMap.get?_eq_some_iff]

theorem Linked.exists_of_mem (h : Linked context bytes ps index) {offset : Nat}
    (hmem : offset ∈ index.recordOffsets) : ∃ p ∈ ps, p.offset = offset := by
  rcases mem_recordOffsets.mp hmem with ⟨key, cie, hcie, rfl⟩ | ⟨start, fde, hfde, rfl⟩
  · obtain ⟨hself, hp, -⟩ := h.cies key cie hcie
    rw [hself]
    exact hp
  · obtain ⟨-, -, -, -, p, hp, hpo, -⟩ := h.fdes start fde hfde
    exact ⟨p, hp, hpo⟩

theorem Linked.nodup_recordOffsets (h : Linked context bytes ps index) :
    index.recordOffsets.Nodup := by
  rw [recordOffsets, SortedMap.values, SortedMap.values, List.map_map, List.map_map,
    List.nodup_append]
  refine ⟨?cies, ?fdes, ?apart⟩
  case cies =>
    -- A CIE is stored under its own offset, and the keys ascend.
    refine List.pairwise_map.mpr (index.cies.entries_ascending.imp_of_mem ?_)
    intro a b ha hb hlt
    have ha := (h.cies a.1 a.2 (SortedMap.get?_eq_some_iff.mpr ha)).1
    have hb := (h.cies b.1 b.2 (SortedMap.get?_eq_some_iff.mpr hb)).1
    simp only [Function.comp_apply]
    omega
  case fdes =>
    refine List.pairwise_map.mpr (index.fdes.entries_ascending.imp_of_mem ?_)
    intro a b ha hb hlt hsame
    have hkeys := h.once a.1 b.1 a.2 b.2 (SortedMap.get?_eq_some_iff.mpr ha)
      (SortedMap.get?_eq_some_iff.mpr hb) hsame
    exact StrictTotal.irrefl _ (hkeys ▸ hlt)
  case apart =>
    intro offset hcie other hfde hsame
    obtain ⟨a, ha, rfl⟩ := List.mem_map.mp hcie
    obtain ⟨b, hb, rfl⟩ := List.mem_map.mp hfde
    have ha := SortedMap.get?_eq_some_iff.mpr ha
    refine h.apart a.1 a.2 b.1 b.2 ha (SortedMap.get?_eq_some_iff.mpr hb) ?_
    rw [← (h.cies a.1 a.2 ha).1]
    exact hsame

/-- **References go back.** Whatever a section holds and however the pass over it ends: the entries
that are left are those of different records in the section, and each FDE has the CIE of the index
that it refers to, which stands before it. A record that refers to itself or further on ends the
pass. -/
theorem decodeInto_linked (context : FrameContext) (kind : FrameSection) (bytes : List UInt8) :
    Linked context bytes (Layout.ofSection context.kind bytes).pieces
        ((empty kind).decodeInto context bytes).value.2 ∧
      ((empty kind).decodeInto context bytes).value.2.recordOffsets.Nodup ∧
      (∀ offset ∈ ((empty kind).decodeInto context bytes).value.2.recordOffsets,
        offset < bytes.length) ∧
      ∀ front p back grown target,
        (Layout.ofSection context.kind bytes).pieces = front ++ p :: back →
        decodePieces context bytes front (empty kind) = (.ok (), grown) →
        (p.record bytes).RefersTo context target → p.offset ≤ target.toNat →
        ((empty kind).decodeInto context bytes).value =
          (.error (.unknownCie p.offset target), grown) := by
  obtain ⟨stop, htiles, hstop, -⟩ :=
    Layout.tiles_ofSectionFrom context.kind (Nat.zero_le bytes.length)
  have hvalue : ((empty kind).decodeInto context bytes).value =
      decodeLayout context bytes (Layout.ofSection context.kind bytes) (empty kind) :=
    value_decodeFrom_drop context bytes 0 (empty kind)
  have hlinked : Linked context bytes (Layout.ofSection context.kind bytes).pieces
      ((empty kind).decodeInto context bytes).value.2 := by
    rw [hvalue, decodeLayout_snd]
    exact (linked_empty context bytes kind).decodePieces htiles
  refine ⟨hlinked, hlinked.nodup_recordOffsets, ?inside, ?forward⟩
  case inside =>
    intro offset hmem
    obtain ⟨p, hp, rfl⟩ := hlinked.exists_of_mem hmem
    obtain ⟨-, hstart, hend, hle⟩ := htiles.le_of_mem hp
    omega
  case forward =>
    intro front p back grown target hpieces hfront hrefers hge
    rw [← Layout.ofSection, hpieces] at htiles
    obtain ⟨middle, hfrontTiles, -⟩ := htiles.of_append
    have hgrown := (linked_empty context bytes kind).decodePieces hfrontTiles
    rw [List.nil_append, hfront] at hgrown
    -- All that is in the index so far stands before the record.
    have hnone : grown.cie? target.toNat = none := by
      refine Option.eq_none_iff_forall_ne_some.mpr fun cie hcie ↦ ?_
      obtain ⟨-, ⟨q, hq, hqo⟩, -⟩ := hgrown.cies _ cie hcie
      have := htiles.offset_lt q hq
      omega
    have hempty : ¬p.isEmpty = true := by
      intro hempty
      refine hrefers.ne_nil ?_
      rw [Piece.record, Piece.body, Piece.isEmpty_iff.mp hempty]
      exact List.drop_of_length_le (List.length_take_le _ _)
    have hrun : decodePieces context bytes (front ++ p :: back) (empty kind) =
        (.error (.unknownCie p.offset target), grown) := by
      rw [decodePieces_append hfront,
        decodePieces_of_error hempty (RawRecord.outcome_of_refersTo hrefers hnone)]
      rfl
    rw [hvalue, decodeLayout, hpieces, hrun]

/-- An FDE of `.debug_frame` and behind it the CIE that it refers to. -/
def forwardReference : List UInt8 :=
  [20, 0, 0, 0, 24, 0, 0, 0] ++ List.replicate 16 0 ++
    [9, 0, 0, 0, 0xff, 0xff, 0xff, 0xff, 1, 0, 1, 0x78, 16]

theorem decodeInto_linked_forwardReference :
    (Layout.ofSection .debugFrame forwardReference).pieces =
        [⟨0, 4, 24, false⟩, ⟨24, 28, 37, false⟩] ∧
      ((empty .debugFrame).decodeInto ⟨.debugFrame, 0, 8⟩ forwardReference).value =
        (.error (.unknownCie 0 24), empty .debugFrame) := by
  have hpieces : (Layout.ofSection .debugFrame forwardReference).pieces =
      [⟨0, 4, 24, false⟩, ⟨24, 28, 37, false⟩] := by cbv
  obtain ⟨-, -, -, hforward⟩ :=
    decodeInto_linked ⟨.debugFrame, 0, 8⟩ .debugFrame forwardReference
  have hrefers : RawRecord.RefersTo ⟨.debugFrame, 0, 8⟩
      (Piece.record forwardReference ⟨0, 4, 24, false⟩) 24 := by
    refine ⟨24, _, rfl, by decide, by decide⟩
  exact ⟨hpieces, hforward [] _ _ _ 24 hpieces rfl hrefers (by decide)⟩

end FrameIndex

end ElfUnwind
