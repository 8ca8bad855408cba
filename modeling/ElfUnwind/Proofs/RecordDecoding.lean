import ElfUnwind.Proofs.BodyDecoding

/-!
# What a record does to the index

Decoding a record either adds one entry to the index or fails, and says nothing else. The two
lemmas to cite are `RawRecord.outcome_eq_ok_iff`, which lists everything a success can be, and
`RawRecord.inRecord_of_outcome`, which says what a failure points at. The pass over a section is a
recursion on `Framing.next` whose step is the outcome of one record (`FrameIndex.value_decodeFrom`).
-/

namespace ElfUnwind

open BodyDecoder

/-! ## Splitting a record off

What stands at the front of a section is settled by its length field, whatever the body holds. -/

namespace Framing

variable {s : Span} {front : List UInt8} {offset : Nat} {length : UInt64} {isWide : Bool}
  {e : Error}

theorem ne_nil_of_takes (h : lengthField.Takes offset front (length, isWide)) : front ≠ [] := by
  rintro rfl
  have hlt := length_lt_of_lengthField (h [])
  exact absurd hlt (Nat.lt_irrefl 0)

theorem next_of_nil (hs : s.bytes = []) : next s = .finished := by
  rw [next, if_pos (by rw [hs, List.isEmpty_nil])]

theorem next_of_error (hs : s.bytes ≠ []) (h : lengthField s = .error e) :
    next s = .invalid e := by
  rw [next, if_neg (by rwa [List.isEmpty_iff]), h]

/-- **What follows a length** is settled by it and by how many bytes there are. -/
theorem next_of_takes (h : lengthField.Takes offset front (length, isWide)) (tail : List UInt8) :
    next ⟨offset, front ++ tail⟩ =
      if length = 0 then .zeroLength offset ⟨offset + front.length, tail⟩
      else if length.toNat ≤ tail.length then
        .record ⟨offset, isWide, ⟨offset + front.length, tail.take length.toNat⟩⟩
          ⟨offset + front.length + length.toNat, tail.drop length.toNat⟩
      else .invalid (.recordOverrun offset) := by
  have hne : ¬(front ++ tail).isEmpty = true := by
    rw [List.isEmpty_iff, List.append_eq_nil_iff]
    exact fun hnil ↦ ne_nil_of_takes h hnil.1
  rw [next, if_neg hne, h tail]
  by_cases hzero : length = 0
  · simp only [if_pos hzero]
  · simp only [if_neg hzero, Span.take, Span.drop, List.length_take, min_eq_left_iff]

theorem next_of_takes_of_eq (h : lengthField.Takes offset front (length, isWide))
    (hzero : length ≠ 0) {body : List UInt8} (hbody : body.length = length.toNat)
    (tail : List UInt8) :
    next ⟨offset, front ++ (body ++ tail)⟩ =
      .record ⟨offset, isWide, ⟨offset + front.length, body⟩⟩
        ⟨offset + front.length + body.length, tail⟩ := by
  have hle : length.toNat ≤ (body ++ tail).length := by
    rw [List.length_append, hbody]
    exact Nat.le_add_right _ _
  rw [next_of_takes h, if_neg hzero, if_pos hle, ← hbody, List.take_left, List.drop_left]

end Framing

/-! ## Fields and instructions

A body is its fields and then its instructions, which are all that is left. -/

namespace BodyDecoder

variable {α β : Type} {d : BodyDecoder α} {g : α → List UInt8 → β} {event : List UInt8 → FrameEvent}
  {s u : Span} {b : β} {e : Error}

theorem silent_rest_eq_ok_iff :
    silent (do
      let a ← d
      let bs ← read Read.rest
      tell (event bs)
      return g a bs) s = .ok (b, u) ↔
      ∃ a t, silent d s = .ok (a, t) ∧ b = g a t.bytes ∧ u = t.drop t.bytes.length := by
  simp only [silent_bind, silent_read, silent_tell, silent_pure, pure_bind, Read.bind_eq_ok_iff]
  constructor
  · rintro ⟨a, t, hfields, bs, t', hrest, hpure⟩
    cases hrest
    cases hpure
    exact ⟨a, t, hfields, rfl, rfl⟩
  · rintro ⟨a, t, hfields, rfl, rfl⟩
    exact ⟨a, t, hfields, t.bytes, _, rfl, rfl⟩

theorem silent_rest_eq_error_iff :
    silent (do
      let a ← d
      let bs ← read Read.rest
      tell (event bs)
      return g a bs) s = .error e ↔ silent d s = .error e := by
  simp only [silent_bind, silent_read, silent_tell, silent_pure, pure_bind, Read.bind_eq_error_iff]
  constructor
  · rintro (hfields | ⟨a, t, -, hrest | ⟨bs, t', -, hpure⟩⟩)
    · exact hfields
    · cases hrest
    · cases hpure
  · exact Or.inl

end BodyDecoder

theorem Cie.silent_decode_eq_ok_iff {context : FrameContext} {offset : Nat} {isWide : Bool}
    {s u : Span} {cie : Cie} :
    silent (Cie.decode context offset isWide) s = .ok (cie, u) ↔
      ∃ head t, silent (Cie.fields context offset isWide) s = .ok (head, t) ∧
        cie = { head with instructions := t.bytes } ∧ u = t.drop t.bytes.length :=
  silent_rest_eq_ok_iff

theorem Fde.silent_decode_eq_ok_iff {context : FrameContext} {offset : Nat} {isWide : Bool}
    {cie : Cie} {s u : Span} {fde : Fde} :
    silent (Fde.decode context offset isWide cie) s = .ok (fde, u) ↔
      ∃ head t, silent (Fde.fields context offset isWide cie) s = .ok (head, t) ∧
        fde = { head with instructions := t.bytes } ∧ u = t.drop t.bytes.length :=
  silent_rest_eq_ok_iff

theorem Cie.silent_decode_eq_error_iff {context : FrameContext} {offset : Nat} {isWide : Bool}
    {s : Span} {e : Error} :
    silent (Cie.decode context offset isWide) s = .error e ↔
      silent (Cie.fields context offset isWide) s = .error e :=
  silent_rest_eq_error_iff

theorem Fde.silent_decode_eq_error_iff {context : FrameContext} {offset : Nat} {isWide : Bool}
    {cie : Cie} {s : Span} {e : Error} :
    silent (Fde.decode context offset isWide cie) s = .error e ↔
      silent (Fde.fields context offset isWide cie) s = .error e :=
  silent_rest_eq_error_iff

/-! ## Entries -/

/-- An entry of either sort. -/
inductive FrameEntry where
  /-- A common information entry. -/
  | cie (cie : Cie)
  /-- A frame description entry. -/
  | fde (fde : Fde)
  deriving DecidableEq, Repr

/-- Adds an entry under its key. -/
def FrameIndex.add (index : FrameIndex) : FrameEntry → FrameIndex
  | .cie c => index.insertCie c
  | .fde f => index.insertFde f

/-! ## Records -/

namespace RawRecord

variable {context : FrameContext} {index grown : FrameIndex} {r : RawRecord} {e : Error}

/-- What decoding a record gives, without the narration. -/
def outcome (context : FrameContext) (index : FrameIndex) (r : RawRecord) :
    Except Error FrameIndex :=
  ((r.decode context index).runOn r.body).run.value

theorem forward_readId {record : Nat} (isWide : Bool) : Read.Forward record (readId isWide) :=
  (Read.forward_unsigned _).bind fun _ ↦ Read.Forward.pure _

/-- The size of an identifier. -/
def idSize (isWide : Bool) : Nat := if isWide then 8 else 4

/-- The body of a record behind its identifier. -/
def afterId (r : RawRecord) : Span := r.body.drop (idSize r.isWide)

/-- Whatever identifier is read, the rest of the body is left. -/
theorem drop_of_readId {isWide : Bool} {s t : Span} {id : UInt64}
    (h : readId isWide s = .ok (id, t)) :
    idSize isWide ≤ s.bytes.length ∧ t = s.drop (idSize isWide) := by
  obtain ⟨value, u, hread, hpure⟩ := Read.bind_eq_ok_iff.mp h
  cases hpure
  cases isWide with
  | true => exact Read.drop_of_unsigned Read.isWidth_eight hread
  | false => exact Read.drop_of_unsigned Read.isWidth_four hread

theorem silent_decode (s : Span) :
    silent (r.decode context index) s
      = (readId r.isWide >>= fun id ↦ silent (decodeEntry context index r s.offset id)) s := by
  simp only [decode, silent_bind, silent_read, silent_tell, silent_offset]
  rfl

/-- Reads the entry of a record behind its identifier `id`, which stands at `place`. The index is
looked at for the CIE of an FDE only. -/
def readEntryOf (context : FrameContext) (index : FrameIndex) (r : RawRecord) (place : Nat)
    (id : UInt64) : Read FrameEntry :=
  if id = context.kind.cieId then
    FrameEntry.cie <$> silent (Cie.decode context r.offset r.isWide)
  else
    match index.cie? (context.kind.cieOffset place id).toNat with
    | none => throw (.unknownCie r.offset (context.kind.cieOffset place id))
    | some cie => FrameEntry.fde <$> silent (Fde.decode context r.offset r.isWide cie)

/-- Reads the entry that a record holds. -/
def readEntry (context : FrameContext) (index : FrameIndex) (r : RawRecord) : Read FrameEntry :=
  readId r.isWide >>= readEntryOf context index r r.body.offset

/-- The entry that a record holds. -/
def entry (context : FrameContext) (index : FrameIndex) (r : RawRecord) : Except Error FrameEntry :=
  (readEntry context index r r.body).map Prod.fst

theorem silent_decodeEntry (place : Nat) (id : UInt64) :
    silent (decodeEntry context index r place id) =
      index.add <$> readEntryOf context index r place id := by
  rw [decodeEntry, readEntryOf]
  by_cases hcie : id = context.kind.cieId
  · rw [if_pos hcie, if_pos hcie, silent_bind, ← comp_map, map_eq_pure_bind]
    rfl
  · rw [if_neg hcie, if_neg hcie]
    dsimp only
    cases index.cie? (context.kind.cieOffset place id).toNat with
    | none => rfl
    | some cie =>
      dsimp only
      rw [silent_bind, ← comp_map, map_eq_pure_bind]
      rfl

/-- **Decoding a record is adding its entry.** -/
theorem outcome_eq (context : FrameContext) (index : FrameIndex) (r : RawRecord) :
    r.outcome context index = (r.entry context index).map index.add := by
  have hmap : (readId r.isWide >>= fun id ↦ silent (decodeEntry context index r r.body.offset id)) =
      index.add <$> readEntry context index r := by
    simp only [silent_decodeEntry, readEntry, map_bind]
  rw [outcome, value_runOn, silent_decode, hmap, entry, map_eq_pure_bind, Read.bind_apply]
  cases readEntry context index r r.body with
  | error e => rfl
  | ok p => rfl

/-- **What a record holds.** A success has read an identifier and then the fields of one entry; what
is left of the body are its instructions. An FDE has found its CIE in the index. -/
theorem entry_eq_ok_iff {e : FrameEntry} :
    r.entry context index = .ok e ↔
      ∃ id s, readId r.isWide r.body = .ok (id, s) ∧
        ((id = context.kind.cieId ∧ ∃ head t,
            silent (Cie.fields context r.offset r.isWide) s = .ok (head, t) ∧
            e = .cie { head with instructions := t.bytes }) ∨
          (id ≠ context.kind.cieId ∧ ∃ cie head t,
            index.cie? (context.kind.cieOffset r.body.offset id).toNat = some cie ∧
            silent (Fde.fields context r.offset r.isWide cie) s = .ok (head, t) ∧
            e = .fde { head with instructions := t.bytes })) := by
  have hread : r.entry context index = .ok e ↔
      ∃ u, readEntry context index r r.body = .ok (e, u) := by
    rw [entry]
    cases readEntry context index r r.body with
    | error e => simp [Except.map]
    | ok p =>
      obtain ⟨e', u⟩ := p
      simp [Except.map]
  rw [hread]
  simp only [readEntry, Read.bind_eq_ok_iff]
  constructor
  · rintro ⟨u, id, s, hid, hentry⟩
    refine ⟨id, s, hid, ?_⟩
    rw [readEntryOf] at hentry
    by_cases hcie : id = context.kind.cieId
    · rw [if_pos hcie] at hentry
      obtain ⟨c, hdecode, rfl⟩ := Read.map_eq_ok_iff.mp hentry
      obtain ⟨head, t, hfields, rfl, -⟩ := Cie.silent_decode_eq_ok_iff.mp hdecode
      exact Or.inl ⟨hcie, head, t, hfields, rfl⟩
    · rw [if_neg hcie] at hentry
      cases hfound : index.cie? (context.kind.cieOffset r.body.offset id).toNat with
      | none =>
        rw [hfound] at hentry
        cases hentry
      | some cie =>
        rw [hfound] at hentry
        obtain ⟨f, hdecode, rfl⟩ := Read.map_eq_ok_iff.mp hentry
        obtain ⟨head, t, hfields, rfl, -⟩ := Fde.silent_decode_eq_ok_iff.mp hdecode
        exact Or.inr ⟨hcie, cie, head, t, rfl, hfields, rfl⟩
  · rintro ⟨id, s, hid, ⟨hcie, head, t, hfields, rfl⟩ | ⟨hcie, cie, head, t, hfound, hfields, rfl⟩⟩
    · have hdecode := Cie.silent_decode_eq_ok_iff.mpr ⟨head, t, hfields, rfl, rfl⟩
      refine ⟨t.drop t.bytes.length, id, s, hid, ?_⟩
      rw [readEntryOf, if_pos hcie]
      exact Read.map_eq_ok_iff.mpr ⟨_, hdecode, rfl⟩
    · have hdecode := Fde.silent_decode_eq_ok_iff.mpr ⟨head, t, hfields, rfl, rfl⟩
      refine ⟨t.drop t.bytes.length, id, s, hid, ?_⟩
      rw [readEntryOf, if_neg hcie, hfound]
      exact Read.map_eq_ok_iff.mpr ⟨_, hdecode, rfl⟩

/-- **What a record adds** is the entry that it holds. -/
theorem outcome_eq_ok_iff :
    r.outcome context index = .ok grown ↔
      ∃ id s, readId r.isWide r.body = .ok (id, s) ∧
        ((id = context.kind.cieId ∧ ∃ head t,
            silent (Cie.fields context r.offset r.isWide) s = .ok (head, t) ∧
            grown = index.insertCie { head with instructions := t.bytes }) ∨
          (id ≠ context.kind.cieId ∧ ∃ cie head t,
            index.cie? (context.kind.cieOffset r.body.offset id).toNat = some cie ∧
            silent (Fde.fields context r.offset r.isWide cie) s = .ok (head, t) ∧
            grown = index.insertFde { head with instructions := t.bytes })) := by
  have hadd : r.outcome context index = .ok grown ↔
      ∃ e, r.entry context index = .ok e ∧ grown = index.add e := by
    rw [outcome_eq]
    cases r.entry context index with
    | error e => simp [Except.map]
    | ok e => simp [Except.map, eq_comm]
  rw [hadd]
  simp only [entry_eq_ok_iff]
  constructor
  · rintro ⟨_, ⟨id, s, hid, ⟨hcie, head, t, hfields, rfl⟩ |
      ⟨hcie, cie, head, t, hfound, hfields, rfl⟩⟩, rfl⟩
    · exact ⟨id, s, hid, Or.inl ⟨hcie, head, t, hfields, rfl⟩⟩
    · exact ⟨id, s, hid, Or.inr ⟨hcie, cie, head, t, hfound, hfields, rfl⟩⟩
  · rintro ⟨id, s, hid, ⟨hcie, head, t, hfields, rfl⟩ | ⟨hcie, cie, head, t, hfound, hfields, rfl⟩⟩
    · exact ⟨.cie _, ⟨id, s, hid, Or.inl ⟨hcie, head, t, hfields, rfl⟩⟩, rfl⟩
    · exact ⟨.fde _, ⟨id, s, hid, Or.inr ⟨hcie, cie, head, t, hfound, hfields, rfl⟩⟩, rfl⟩

/-- **Why a record fails.** Its identifier is cut off, the fields of its entry cannot be decoded, or
an FDE does not find its CIE in the index. -/
theorem outcome_eq_error_iff :
    r.outcome context index = .error e ↔
      readId r.isWide r.body = .error e ∨
        ∃ id s, readId r.isWide r.body = .ok (id, s) ∧
          ((id = context.kind.cieId ∧
              silent (Cie.fields context r.offset r.isWide) s = .error e) ∨
            (id ≠ context.kind.cieId ∧
              index.cie? (context.kind.cieOffset r.body.offset id).toNat = none ∧
              e = .unknownCie r.offset (context.kind.cieOffset r.body.offset id)) ∨
            (id ≠ context.kind.cieId ∧ ∃ cie,
              index.cie? (context.kind.cieOffset r.body.offset id).toNat = some cie ∧
              silent (Fde.fields context r.offset r.isWide cie) s = .error e)) := by
  have hread : r.outcome context index = .error e ↔
      readEntry context index r r.body = .error e := by
    rw [outcome_eq, entry]
    cases readEntry context index r r.body with
    | error e' => simp [Except.map]
    | ok p => simp [Except.map]
  rw [hread, readEntry, Read.bind_eq_error_iff]
  refine or_congr_right (exists₂_congr fun id s ↦ and_congr_right fun _ ↦ ?_)
  rw [readEntryOf]
  by_cases hcie : id = context.kind.cieId
  · rw [if_pos hcie, Read.map_eq_error_iff, Cie.silent_decode_eq_error_iff]
    simp [hcie]
  · rw [if_neg hcie]
    cases hfound : index.cie? (context.kind.cieOffset r.body.offset id).toNat with
    | none =>
      change Except.error _ = Except.error e ↔ _
      simp [hcie, eq_comm]
    | some cie =>
      dsimp only
      rw [Read.map_eq_error_iff, Fde.silent_decode_eq_error_iff]
      simp [hcie]

/-- What is added belongs to the record, and its instructions are the end of the body. -/
theorem added_of_outcome (h : r.outcome context index = .ok grown) :
    (∃ cie, cie.offset = r.offset ∧ cie.instructions <:+ r.body.bytes ∧
        grown = index.insertCie cie) ∨
      (∃ fde, fde.offset = r.offset ∧ fde.instructions <:+ r.body.bytes ∧
        grown = index.insertFde fde) := by
  obtain ⟨id, s, hid, hentry⟩ := outcome_eq_ok_iff.mp h
  have hforward : Read.Forward r.offset (readId r.isWide) := forward_readId r.isWide
  have hs := hforward.bytes_suffix hid
  rcases hentry with ⟨-, head, t, hfields, rfl⟩ | ⟨-, cie, head, t, -, hfields, rfl⟩
  · have ht := Cie.forward_fields.bytes_suffix hfields
    exact Or.inl ⟨{ head with instructions := t.bytes }, Cie.yields_fields s t head hfields,
      ht.trans hs, rfl⟩
  · have hfieldsForward : Read.Forward r.offset
        (silent (Fde.fields context r.offset r.isWide cie)) := Fde.forward_fields cie
    have ht := hfieldsForward.bytes_suffix hfields
    exact Or.inr ⟨{ head with instructions := t.bytes }, Fde.yields_fields cie s t head hfields,
      ht.trans hs, rfl⟩

/-- **What a failure points at**: the record, or a place in its body. -/
theorem inRecord_of_outcome (h : r.outcome context index = .error e) :
    e.InRecord r.offset r.body.offset := by
  have hforward : Read.Forward r.offset (readId r.isWide) := forward_readId r.isWide
  rcases outcome_eq_error_iff.mp h with hid | ⟨id, s, hid, hentry⟩
  · exact hforward.fails hid
  refine Error.InRecord.mono ?_ (hforward.offset_le hid)
  rcases hentry with ⟨-, hfields⟩ | ⟨-, -, rfl⟩ | ⟨-, cie, -, hfields⟩
  · exact Cie.forward_fields.fails hfields
  · rfl
  · exact (Fde.forward_fields cie).fails hfields

end RawRecord

/-! ## The pass over a section -/

namespace FrameIndex

/-- The outcome of a pass, step by step. -/
theorem value_decodeFrom (context : FrameContext) (s : Span) (index : FrameIndex) :
    (index.decodeFrom context s).value =
      match Framing.next s with
      | .finished => (.ok (), index)
      | .invalid cause => (.error cause, index)
      | .zeroLength _ rest =>
        match context.kind with
        | .ehFrame => (index.decodeFrom context rest).value
        | .debugFrame => (.ok (), index)
      | .record r rest =>
        match r.outcome context index with
        | .error cause => (.error cause, index)
        | .ok grown => (grown.decodeFrom context rest).value := by
  rw [decodeFrom]
  split
  · rename_i h
    rw [h]
    rfl
  · rename_i h
    rw [h]
    rfl
  · rename_i h
    rw [h, Told.value_bind]
    cases context.kind <;> rfl
  · rename_i r rest h
    rw [h, Told.value_bind]
    simp only [RawRecord.outcome]
    cases ((r.decode context index).runOn r.body).run.value with
    | error cause => rfl
    | ok grown => rfl

theorem decodeFrom_finished {context : FrameContext} {s : Span} (index : FrameIndex)
    (h : Framing.next s = .finished) : (index.decodeFrom context s).value = (.ok (), index) := by
  rw [value_decodeFrom, h]

theorem decodeFrom_invalid {context : FrameContext} {s : Span} {cause : Error}
    (index : FrameIndex) (h : Framing.next s = .invalid cause) :
    (index.decodeFrom context s).value = (.error cause, index) := by
  rw [value_decodeFrom, h]

theorem decodeFrom_zeroLength {context : FrameContext} {s rest : Span} {offset : Nat}
    (index : FrameIndex) (h : Framing.next s = .zeroLength offset rest)
    (hkind : context.kind = .ehFrame) :
    (index.decodeFrom context s).value = (index.decodeFrom context rest).value := by
  rw [value_decodeFrom, h]
  simp only [hkind]

theorem decodeFrom_record {context : FrameContext} {s rest : Span} {r : RawRecord}
    {index grown : FrameIndex} (h : Framing.next s = .record r rest)
    (hr : r.outcome context index = .ok grown) :
    (index.decodeFrom context s).value = (grown.decodeFrom context rest).value := by
  rw [value_decodeFrom, h]
  simp only [hr]

end FrameIndex

end ElfUnwind
