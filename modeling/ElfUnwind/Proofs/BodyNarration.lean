import ElfUnwind.Proofs.RecordDecoding

/-!
# What decoding a record tells

A decoder tells while it decodes, and what it has told is a list of events that its parts put
together: those of a step that fails are told as well, and nothing is told behind them. Most events
are details. The others are told by a record as a whole: that its identifier was read
(`RawRecord.marks_decode`), and the range of its FDE (`RawRecord.starts_decode`).

In a log, the lines of lengths of zero and of identifiers begin with a bracket, those of ranges with
`cie_offset `, and no other lines do (`Event.beginning_bracket`, `Event.beginning_cieOffset`).
-/

namespace ElfUnwind

/-! ## Lines -/

namespace Line

/-- The lines that begin with a tag. -/
def beginning (tag : String) (lines : List String) : List String :=
  lines.filter fun line ↦ tag.toList.isPrefixOf line.toList

variable {tag s : String}

/-- The line and the tag differ before one of them ends. -/
def Differs (tag s : String) : Prop := ¬tag.toList <+: s.toList ∧ ¬s.toList <+: tag.toList

theorem Differs.append (h : Differs tag s) (t : String) : Differs tag (s ++ t) := by
  rw [Differs, String.toList_append]
  constructor
  · -- Of two fronts of one line, one is a front of the other.
    intro htag
    rcases List.prefix_or_prefix_of_prefix htag (List.prefix_append s.toList t.toList) with hp | hp
    · exact h.1 hp
    · exact h.2 hp
  · exact fun hs ↦ h.2 ((List.prefix_append s.toList t.toList).trans hs)

theorem prefix_append (h : tag.toList <+: s.toList) (t : String) :
    tag.toList <+: (s ++ t).toList := by
  rw [String.toList_append]
  exact h.trans (List.prefix_append s.toList t.toList)

end Line

open Line

/-! ## Marks and ranges -/

/-- What is told where something begins in a section. -/
inductive Mark where
  /-- A length of zero. -/
  | zeroLength (offset : ℕ)
  /-- A record, by its identifier. -/
  | record (offset : ℕ) (id : UInt64) (isCie : Bool)
  deriving DecidableEq, Repr

namespace Mark

/-- The event that it is told by. -/
def event : Mark → FrameEvent
  | zeroLength offset => .zeroLength offset
  | record offset id isCie => .record offset id isCie

/-- Its line in a log. Numbers are to base sixteen. -/
def text : Mark → String
  | zeroLength offset => "<" ++ String.ofList (Nat.toDigits 16 offset) ++ "> zero terminator"
  | record offset id true =>
    "<" ++ String.ofList (Nat.toDigits 16 offset) ++ "> cie_id " ++
      String.ofList (Nat.toDigits 16 id.toNat) ++ " CIE"
  | record offset id false =>
    "<" ++ String.ofList (Nat.toDigits 16 offset) ++ "> cie_id " ++
      String.ofList (Nat.toDigits 16 id.toNat) ++ " FDE"

/-- Where it begins. -/
def offset : Mark → ℕ
  | zeroLength offset => offset
  | record offset _ _ => offset

/-- Where it begins, if it is a record of a CIE. -/
def cieOffset? : Mark → Option ℕ
  | record offset _ true => some offset
  | _ => none

/-- Where it begins, if it is a record of an FDE. -/
def fdeOffset? : Mark → Option ℕ
  | record offset _ false => some offset
  | _ => none

variable {m : Mark} {place : ℕ}

theorem text_event (m : Mark) : m.event.text = m.text := by
  cases m with
  | zeroLength offset => rfl
  | record offset id isCie => cases isCie <;> rfl

theorem prefix_text (m : Mark) : "<".toList <+: m.text.toList := by
  cases m with
  | zeroLength =>
    iterate 2 refine prefix_append ?_ _
    exact List.prefix_refl _
  | record _ _ isCie =>
    cases isCie
    all_goals
      iterate 4 refine prefix_append ?_ _
      exact List.prefix_refl _

theorem offset_of_cieOffset? (h : m.cieOffset? = some place) : m.offset = place := by
  cases m with
  | zeroLength offset => cases h
  | record offset id isCie => cases isCie <;> cases h; rfl

theorem offset_of_fdeOffset? (h : m.fdeOffset? = some place) : m.offset = place := by
  cases m with
  | zeroLength offset => cases h
  | record offset id isCie => cases isCie <;> cases h; rfl

end Mark

/-- What is told of the range of an FDE. -/
structure RangeTold where
  /-- Where its CIE begins. -/
  cieOffset : ℕ
  /-- Its first address. -/
  start : UInt64
  /-- The address behind its last. -/
  stop : UInt64

namespace RangeTold

/-- Its line in a log. -/
def text (r : RangeTold) : String :=
  "cie_offset 0x" ++ String.ofList (Nat.toDigits 16 r.cieOffset) ++ ", proc range [0x" ++
    String.ofList (Nat.toDigits 16 r.start.toNat) ++ " - 0x" ++
    String.ofList (Nat.toDigits 16 r.stop.toNat) ++ "]"

theorem text_event (r : RangeTold) :
    (FrameEvent.range r.cieOffset r.start r.stop).text = r.text := by
  unfold FrameEvent.text text Text.hexAddress Text.hex
  rw [← String.toList_inj]
  simp

theorem prefix_text (r : RangeTold) : "cie_offset ".toList <+: r.text.toList := by
  iterate 6 refine prefix_append ?_ _
  decide

end RangeTold

namespace Event

/-- The mark that an event is. -/
def mark? : Event → Option Mark
  | frame (.zeroLength offset) => some (.zeroLength offset)
  | frame (.record offset id isCie) => some (.record offset id isCie)
  | _ => none

/-- The range that an event tells. -/
def range? : Event → Option RangeTold
  | frame (.range cieOffset start stop) => some ⟨cieOffset, start, stop⟩
  | _ => none

/-- The marks among events. -/
def marks (events : List Event) : List Mark := events.filterMap mark?

/-- The ranges among events. -/
def ranges (events : List Event) : List RangeTold := events.filterMap range?

/-- The starts of the ranges among events. -/
def starts (events : List Event) : List UInt64 := (ranges events).map RangeTold.start

variable {events more : List Event} {m : Mark} {r : RangeTold} {e : Event}

theorem mark?_eq_some_iff : e.mark? = some m ↔ e = .frame m.event := by
  constructor
  · intro h
    cases e with
    | frame e => cases e <;> cases h <;> rfl
    | _ => cases h
  · rintro rfl
    cases m <;> rfl

theorem range?_eq_some_iff :
    e.range? = some r ↔ e = .frame (.range r.cieOffset r.start r.stop) := by
  constructor
  · intro h
    cases e with
    | frame e => cases e <;> cases h; rfl
    | _ => cases h
  · rintro rfl
    rfl

theorem differs_of_mark? (h : e.mark? = none) : Differs "<" e.text := by
  cases e with
  | frame e =>
    unfold text FrameEvent.text
    cases e with
    | zeroLength | record => cases h
    | _ =>
      -- The first words of a line tell it from the tag, whatever is put in behind them.
      repeat with_reducible refine Differs.append ?_ _
      exact ⟨by decide, by decide⟩
  | _ =>
    unfold text
    repeat with_reducible refine Differs.append ?_ _
    exact ⟨by decide, by decide⟩

theorem differs_of_range? (h : e.range? = none) : Differs "cie_offset " e.text := by
  cases e with
  | frame e =>
    unfold text FrameEvent.text
    cases e with
    | range => cases h
    | _ =>
      repeat with_reducible refine Differs.append ?_ _
      exact ⟨by decide, by decide⟩
  | _ =>
    unfold text
    repeat with_reducible refine Differs.append ?_ _
    exact ⟨by decide, by decide⟩

/-- Lines of one sort, where a tag tells them from all others. -/
theorem beginning_map_text {α : Type} {tag : String} {pick : Event → Option α} {text : α → String}
    (hpick : ∀ e a, pick e = some a → e.text = text a) (htext : ∀ a, tag.toList <+: (text a).toList)
    (hother : ∀ e, pick e = none → Differs tag e.text) (events : List Event) :
    beginning tag (events.map Event.text) = (events.filterMap pick).map text := by
  induction events with
  | nil => rfl
  | cons e events ih =>
    rw [beginning] at ih ⊢
    rw [List.map_cons]
    cases hcase : pick e with
    | none =>
      have hdiffers : ¬tag.toList <+: e.text.toList := (hother e hcase).1
      rw [List.filter_cons_of_neg (by simpa using hdiffers), ih, List.filterMap_cons_none hcase]
    | some a =>
      have hbegins : tag.toList <+: e.text.toList := by
        rw [hpick e a hcase]
        exact htext a
      rw [List.filter_cons_of_pos (by simpa using hbegins), ih, List.filterMap_cons_some hcase,
        List.map_cons, hpick e a hcase]

/-- **Marks are known by their lines**: those that begin with a bracket are theirs. -/
theorem beginning_bracket (events : List Event) :
    beginning "<" (events.map text) = (marks events).map Mark.text := by
  refine beginning_map_text (fun e m h ↦ ?_) Mark.prefix_text (fun e ↦ differs_of_mark?) events
  rw [mark?_eq_some_iff.mp h]
  exact m.text_event

/-- **Ranges are known by their lines**, and the starts of FDEs with them. -/
theorem beginning_cieOffset (events : List Event) :
    beginning "cie_offset " (events.map text) = (ranges events).map RangeTold.text := by
  refine beginning_map_text (fun e r h ↦ ?_) RangeTold.prefix_text (fun e ↦ differs_of_range?)
    events
  rw [range?_eq_some_iff.mp h]
  exact r.text_event

theorem marks_append : marks (events ++ more) = marks events ++ marks more := List.filterMap_append

theorem starts_append : starts (events ++ more) = starts events ++ starts more := by
  rw [starts, ranges, List.filterMap_append, List.map_append]
  rfl

end Event

namespace FrameEvent

/-- It is no mark. -/
def IsInBody : FrameEvent → Prop
  | zeroLength _ => False
  | record _ _ _ => False
  | _ => True

/-- It is neither a mark nor a range. -/
def IsDetail : FrameEvent → Prop
  | zeroLength _ => False
  | record _ _ _ => False
  | range _ _ _ => False
  | _ => True

variable {e : FrameEvent}

theorem IsDetail.isInBody (h : e.IsDetail) : e.IsInBody := by
  cases e <;> first | exact h | trivial

theorem IsInBody.mark?_eq_none (h : e.IsInBody) : (Event.frame e).mark? = none := by
  cases e <;> first | exact h.elim | rfl

theorem IsDetail.range?_eq_none (h : e.IsDetail) : (Event.frame e).range? = none := by
  cases e <;> first | exact h.elim | rfl

end FrameEvent

/-! ## The narration of a decoder -/

namespace BodyDecoder

variable {α β : Type} {d : BodyDecoder α} {f : α → BodyDecoder β} {s t : Span} {a : α} {e : Error}
  {P Q : FrameEvent → Prop}

/-- What a decoder tells. -/
def narration (d : BodyDecoder α) (s : Span) : List Event := (d s).run.events

@[simp] theorem narration_pure (a : α) (s : Span) : narration (pure a) s = [] := rfl

theorem narration_bind (d : BodyDecoder α) (f : α → BodyDecoder β) (s : Span) :
    narration (d >>= f) s =
      narration d s ++ match silent d s with
        | .ok (a, t) => narration (f a) t
        | .error _ => [] := by
  change ((d s).run >>= ExceptT.bindCont fun p ↦ f p.1 p.2).events = _
  rw [Told.events_bind]
  cases h : (d s).run.value with
  | error e => simp only [narration, silent, h, ExceptT.bindCont, Told.events_pure]
  | ok p =>
    simp only [narration, silent, h, ExceptT.bindCont]
    rfl

theorem narration_bind_of_ok (h : silent d s = .ok (a, t)) (f : α → BodyDecoder β) :
    narration (d >>= f) s = narration d s ++ narration (f a) t := by
  rw [narration_bind, h]

theorem narration_bind_of_error (h : silent d s = .error e) (f : α → BodyDecoder β) :
    narration (d >>= f) s = narration d s := by
  rw [narration_bind, h, List.append_nil]

/-- Running a decoder on a whole body tells what it tells. -/
theorem events_runOn (d : BodyDecoder α) (body : Span) :
    (d.runOn body).run.events = narration d body := by
  change ((d body).run >>= ExceptT.bindCont fun p ↦ pure p.1).events = _
  rw [Told.events_bind]
  cases h : (d body).run.value with
  | error e => simp only [narration, ExceptT.bindCont, Told.events_pure, List.append_nil]
  | ok p =>
    simp only [narration, ExceptT.bindCont]
    exact List.append_nil _

/-! ## Events of one sort -/

/-- All that a decoder tells has the property, also where it fails. -/
def TellsOnly (P : FrameEvent → Prop) (d : BodyDecoder α) : Prop :=
  ∀ s, ∀ event ∈ narration d s, ∃ e, event = .frame e ∧ P e

theorem TellsOnly.mono (h : d.TellsOnly P) (hPQ : ∀ e, P e → Q e) : d.TellsOnly Q := by
  intro s event hevent
  obtain ⟨e, he, hP⟩ := h s event hevent
  exact ⟨e, he, hPQ e hP⟩

theorem tellsOnly_pure (a : α) : (pure a : BodyDecoder α).TellsOnly P :=
  fun _ _ h ↦ absurd h List.not_mem_nil

theorem tellsOnly_read (r : Read α) : (read r).TellsOnly P :=
  fun _ _ h ↦ absurd h List.not_mem_nil

theorem tellsOnly_fail (e : Error) : (fail e : BodyDecoder α).TellsOnly P :=
  fun _ _ h ↦ absurd h List.not_mem_nil

theorem tellsOnly_offset : offset.TellsOnly P := fun _ _ h ↦ absurd h List.not_mem_nil

theorem tellsOnly_tell {e : FrameEvent} (h : P e) : (tell e).TellsOnly P :=
  fun _ _ hevent ↦ ⟨e, List.mem_singleton.mp hevent, h⟩

theorem TellsOnly.bind (hd : d.TellsOnly P) (hf : ∀ a, (f a).TellsOnly P) :
    (d >>= f).TellsOnly P := by
  intro s event hevent
  cases h : silent d s with
  | error e =>
    rw [narration_bind_of_error h] at hevent
    exact hd s event hevent
  | ok p =>
    rw [narration_bind_of_ok (a := p.1) (t := p.2) h] at hevent
    rcases List.mem_append.mp hevent with hfirst | hthen
    · exact hd s event hfirst
    · exact hf p.1 p.2 event hthen

theorem TellsOnly.ite {p : Prop} [Decidable p] {d' : BodyDecoder α} (hd : d.TellsOnly P)
    (hd' : d'.TellsOnly P) : (if p then d else d').TellsOnly P := by
  split
  · exact hd
  · exact hd'

theorem TellsOnly.foldlM {g : α → β → BodyDecoder α} (h : ∀ a b, (g a b).TellsOnly P)
    (bs : List β) (a : α) : (bs.foldlM g a).TellsOnly P := by
  induction bs generalizing a with
  | nil => exact tellsOnly_pure a
  | cons b bs ih =>
    rw [List.foldlM_cons]
    exact (h a b).bind ih

theorem TellsOnly.marks_eq_nil (h : d.TellsOnly FrameEvent.IsInBody) (s : Span) :
    Event.marks (narration d s) = [] := by
  refine List.filterMap_eq_nil_iff.mpr fun event hevent ↦ ?_
  obtain ⟨e, rfl, he⟩ := h s event hevent
  exact he.mark?_eq_none

theorem TellsOnly.starts_eq_nil (h : d.TellsOnly FrameEvent.IsDetail) (s : Span) :
    Event.starts (narration d s) = [] := by
  refine List.map_eq_nil_iff.mpr (List.filterMap_eq_nil_iff.mpr fun event hevent ↦ ?_)
  obtain ⟨e, rfl, he⟩ := h s event hevent
  exact he.range?_eq_none

/-! ## The start of an FDE -/

/-- Where an FDE is decoded, its start is the only one that is told. -/
def TellsStart (d : BodyDecoder Fde) : Prop :=
  ∀ s t fde, silent d s = .ok (fde, t) → Event.starts (narration d s) = [fde.start]

theorem TellsStart.bind {k : α → BodyDecoder Fde} (hd : d.TellsOnly FrameEvent.IsDetail)
    (hk : ∀ a, (k a).TellsStart) : (d >>= k).TellsStart := by
  intro s u fde hok
  rw [silent_bind] at hok
  obtain ⟨a, t, hdok, hkok⟩ := Read.bind_eq_ok_iff.mp hok
  rw [narration_bind_of_ok hdok, Event.starts_append, hd.starts_eq_nil, List.nil_append,
    hk a t u fde hkok]

/-- What comes behind the range tells details only, and keeps the start. -/
theorem tellsStart_range {k : BodyDecoder Fde} (cieOffset : ℕ) (start stop : UInt64)
    (hk : k.TellsOnly FrameEvent.IsDetail) (hyields : (silent k).Yields (·.start = start)) :
    (tell (.range cieOffset start stop) >>= fun _ ↦ k).TellsStart := by
  intro s u fde hok
  have htell : silent (tell (.range cieOffset start stop)) s = .ok ((), s) := rfl
  rw [silent_bind, Read.bind_of_ok htell] at hok
  rw [narration_bind_of_ok htell, Event.starts_append, hk.starts_eq_nil, List.append_nil,
    hyields s u fde hok]
  rfl

theorem TellsStart.append {d : BodyDecoder Fde} {k : Fde → BodyDecoder Fde} (hd : d.TellsStart)
    (hk : ∀ fde, (k fde).TellsOnly FrameEvent.IsDetail)
    (hyields : ∀ fde : Fde, (silent (k fde)).Yields (·.start = fde.start)) :
    (d >>= k).TellsStart := by
  intro s u fde hok
  rw [silent_bind] at hok
  obtain ⟨head, t, hdok, hkok⟩ := Read.bind_eq_ok_iff.mp hok
  rw [narration_bind_of_ok hdok, Event.starts_append, (hk head).starts_eq_nil, List.append_nil,
    hd s t head hdok, hyields head t u fde hkok]

end BodyDecoder

open BodyDecoder

/-! ## Entries -/

namespace Cie

theorem tellsOnly_letterData (addressSize : UInt8) (malformed : Error) (data : AugmentationData)
    (letter : Char) :
    (letterData addressSize malformed data letter).TellsOnly FrameEvent.IsDetail := by
  have htold : ∀ {e : FrameEvent} (data : AugmentationData), e.IsDetail →
      (tell e >>= fun _ ↦ pure data : BodyDecoder AugmentationData).TellsOnly
        FrameEvent.IsDetail :=
    fun data he ↦ (tellsOnly_tell he).bind fun _ ↦ tellsOnly_pure data
  rw [letterData]
  refine TellsOnly.ite ?address <| TellsOnly.ite ?personality <| TellsOnly.ite ?lsda ?other
  case address => exact (tellsOnly_read _).bind fun _ ↦ htold _ trivial
  case personality =>
    exact (tellsOnly_read _).bind fun _ ↦ (tellsOnly_read _).bind fun _ ↦ htold _ trivial
  case lsda => exact (tellsOnly_read _).bind fun _ ↦ htold _ trivial
  case other => exact tellsOnly_fail malformed

theorem tellsOnly_augmentationData (addressSize : UInt8) (malformed : Error)
    (augmentation : String) :
    (augmentationData addressSize malformed augmentation).TellsOnly FrameEvent.IsDetail := by
  rw [augmentationData]
  split
  · refine (tellsOnly_read _).bind fun _ ↦ (tellsOnly_tell trivial).bind fun _ ↦ ?_
    exact TellsOnly.foldlM (tellsOnly_letterData addressSize malformed) _ _
  · exact tellsOnly_pure _

theorem tellsOnly_declaredSize (context : FrameContext) (version : UInt8) :
    (declaredSize context version).TellsOnly FrameEvent.IsDetail := by
  rw [declaredSize]
  refine TellsOnly.ite ?_ (tellsOnly_pure _)
  refine (tellsOnly_read _).bind fun _ ↦ (tellsOnly_read _).bind fun _ ↦ ?_
  exact (tellsOnly_tell trivial).bind fun _ ↦ tellsOnly_pure _

theorem tellsOnly_checkAugmentation (malformed : Error) (augmentation : String) :
    (checkAugmentation malformed augmentation).TellsOnly FrameEvent.IsDetail :=
  TellsOnly.ite (tellsOnly_pure ()) (tellsOnly_fail malformed)

theorem tellsOnly_decode (context : FrameContext) (offset : ℕ) (isWide : Bool) :
    (decode context offset isWide).TellsOnly FrameEvent.IsDetail := by
  have hfields : (fields context offset isWide).TellsOnly FrameEvent.IsDetail := by
    refine (tellsOnly_read _).bind fun version ↦ (tellsOnly_read _).bind fun text ↦ ?_
    refine (tellsOnly_tell trivial).bind fun _ ↦ ?_
    refine (tellsOnly_checkAugmentation _ _).bind fun _ ↦ ?_
    refine (tellsOnly_declaredSize context version).bind fun addressSize ↦ ?_
    refine (tellsOnly_read _).bind fun _ ↦ (tellsOnly_read _).bind fun _ ↦ ?_
    refine (tellsOnly_read _).bind fun _ ↦ (tellsOnly_tell trivial).bind fun _ ↦ ?_
    exact (tellsOnly_augmentationData addressSize _ _).bind fun _ ↦ tellsOnly_pure _
  refine hfields.bind fun cie ↦ (tellsOnly_read _).bind fun _ ↦ ?_
  exact (tellsOnly_tell trivial).bind fun _ ↦ tellsOnly_pure _

end Cie

namespace Fde

theorem tellsOnly_pointer (encoding : PointerEncoding) (addressSize : UInt8) :
    (pointer encoding addressSize).TellsOnly FrameEvent.IsDetail := by
  refine (tellsOnly_read _).bind fun value ↦ ?_
  cases value with
  | none => exact tellsOnly_fail _
  | some value => exact tellsOnly_pure value

theorem tellsOnly_passLength (cie : Cie) : (passLength cie).TellsOnly FrameEvent.IsDetail := by
  rw [passLength]
  exact TellsOnly.ite ((tellsOnly_read _).bind fun _ ↦ tellsOnly_tell trivial) (tellsOnly_pure ())

theorem tellsOnly_passLsda (cie : Cie) : (passLsda cie).TellsOnly FrameEvent.IsDetail := by
  rw [passLsda]
  exact TellsOnly.ite ((tellsOnly_read _).bind fun _ ↦ tellsOnly_tell trivial) (tellsOnly_pure ())

theorem tellsStart_fields (context : FrameContext) (offset : ℕ) (isWide : Bool) (cie : Cie) :
    (fields context offset isWide cie).TellsStart := by
  refine TellsStart.bind tellsOnly_offset fun location ↦ ?_
  refine TellsStart.bind (tellsOnly_pointer _ _) fun initial ↦ ?_
  refine TellsStart.bind (tellsOnly_pointer _ _) fun length ↦ ?_
  refine tellsStart_range _ _ _ ?_ ?_
  · refine (tellsOnly_passLength cie).bind fun _ ↦ (tellsOnly_passLsda cie).bind fun _ ↦ ?_
    exact tellsOnly_pure _
  · simp only [silent_bind, silent_pure]
    exact Read.Yields.bind fun _ ↦ Read.Yields.bind fun _ ↦ Read.Yields.pure rfl

theorem tellsStart_decode (context : FrameContext) (offset : ℕ) (isWide : Bool) (cie : Cie) :
    (decode context offset isWide cie).TellsStart := by
  refine (tellsStart_fields context offset isWide cie).append (fun fde ↦ ?_) fun fde ↦ ?_
  · refine (tellsOnly_read _).bind fun _ ↦ ?_
    exact (tellsOnly_tell trivial).bind fun _ ↦ tellsOnly_pure _
  · simp only [silent_bind, silent_pure]
    exact Read.Yields.bind fun _ ↦ Read.Yields.bind fun _ ↦ Read.Yields.pure rfl

/-- An FDE tells no mark, though a range. -/
theorem tellsOnly_decode (context : FrameContext) (offset : ℕ) (isWide : Bool) (cie : Cie) :
    (decode context offset isWide cie).TellsOnly FrameEvent.IsInBody := by
  have hdetail {α : Type} {d : BodyDecoder α} (h : d.TellsOnly FrameEvent.IsDetail) :
      d.TellsOnly FrameEvent.IsInBody := h.mono fun _ ↦ FrameEvent.IsDetail.isInBody
  have hfields : (fields context offset isWide cie).TellsOnly FrameEvent.IsInBody := by
    refine tellsOnly_offset.bind fun location ↦ ?_
    refine (hdetail (tellsOnly_pointer _ _)).bind fun initial ↦ ?_
    refine (hdetail (tellsOnly_pointer _ _)).bind fun length ↦ ?_
    refine (tellsOnly_tell trivial).bind fun _ ↦ ?_
    refine (hdetail (tellsOnly_passLength cie)).bind fun _ ↦ ?_
    exact (hdetail (tellsOnly_passLsda cie)).bind fun _ ↦ tellsOnly_pure _
  refine hfields.bind fun fde ↦ (tellsOnly_read _).bind fun _ ↦ ?_
  exact (tellsOnly_tell trivial).bind fun _ ↦ tellsOnly_pure _

end Fde

/-! ## Records -/

/-- Whether it is a CIE. -/
def FrameEntry.isCie : FrameEntry → Bool
  | cie _ => true
  | fde _ => false

/-- Where its range begins, if it is an FDE. -/
def FrameEntry.start? : FrameEntry → Option UInt64
  | cie _ => none
  | fde f => some f.start

namespace RawRecord

variable {context : FrameContext} {index : FrameIndex} {r : RawRecord} {e : FrameEntry}

/-- The mark of a record, which is told once its identifier was read. -/
def mark? (context : FrameContext) (r : RawRecord) : Option Mark :=
  match readId r.isWide r.body with
  | .ok (id, _) => some (.record r.offset id (id = context.kind.cieId))
  | .error _ => none

/-- What decoding a record tells: its mark, and what is told of the entry. -/
theorem narration_decode (context : FrameContext) (index : FrameIndex) (r : RawRecord) :
    narration (r.decode context index) r.body =
      match readId r.isWide r.body with
      | .ok (id, t) => .frame (.record r.offset id (id = context.kind.cieId)) ::
          narration (decodeEntry context index r r.body.offset id) t
      | .error _ => [] := by
  have hplace : silent BodyDecoder.offset r.body = .ok (r.body.offset, r.body) := rfl
  rw [decode, narration_bind_of_ok hplace]
  cases hid : readId r.isWide r.body with
  | error e => rw [narration_bind_of_error (by rw [silent_read, hid])]; rfl
  | ok p =>
    obtain ⟨id, t⟩ := p
    have hread : silent (read (readId r.isWide)) r.body = .ok (id, t) := hid
    have htell : silent (tell (.record r.offset id (id = context.kind.cieId))) t = .ok ((), t) :=
      rfl
    rw [narration_bind_of_ok hread, narration_bind_of_ok htell]
    rfl

/-- What a record adds is an entry. -/
theorem exists_entry_of_outcome {grown : FrameIndex} (h : r.outcome context index = .ok grown) :
    ∃ e, r.entry context index = .ok e ∧ grown = index.add e := by
  rw [outcome_eq] at h
  cases hentry : r.entry context index with
  | error e =>
    rw [hentry] at h
    cases h
  | ok e =>
    rw [hentry] at h
    cases h
    exact ⟨e, rfl, rfl⟩

theorem tellsOnly_decodeEntry (place : ℕ) (id : UInt64) :
    (decodeEntry context index r place id).TellsOnly FrameEvent.IsInBody := by
  rw [decodeEntry]
  refine TellsOnly.ite ?cie ?fde
  case cie =>
    refine ((Cie.tellsOnly_decode context r.offset r.isWide).mono fun _ ↦
      FrameEvent.IsDetail.isInBody).bind fun _ ↦ tellsOnly_pure _
  case fde =>
    dsimp only
    split
    · exact tellsOnly_fail _
    · exact (Fde.tellsOnly_decode context r.offset r.isWide _).bind fun _ ↦ tellsOnly_pure _

/-- **One mark a record**: it is told where the identifier was read, whatever comes of the rest. -/
theorem marks_decode (context : FrameContext) (index : FrameIndex) (r : RawRecord) :
    Event.marks (narration (r.decode context index) r.body) = (r.mark? context).toList := by
  rw [narration_decode, mark?]
  cases readId r.isWide r.body with
  | error e => rfl
  | ok p =>
    have hmark : (Event.frame (.record r.offset p.1 (p.1 = context.kind.cieId))).mark? =
      some (.record r.offset p.1 (p.1 = context.kind.cieId)) := rfl
    exact (List.filterMap_cons_some hmark).trans
      (congrArg _ ((tellsOnly_decodeEntry r.body.offset p.1).marks_eq_nil p.2))

/-- The mark of a record that was decoded is that of its entry. -/
theorem mark?_of_entry (h : r.entry context index = .ok e) :
    ∃ id, r.mark? context = some (.record r.offset id e.isCie) := by
  obtain ⟨id, s, hid, ⟨hcie, head, t, -, rfl⟩ | ⟨hne, cie, head, t, -, -, rfl⟩⟩ :=
    entry_eq_ok_iff.mp h
  · exact ⟨id, by simp only [mark?, hid, hcie, decide_true, FrameEntry.isCie]⟩
  · exact ⟨id, by simp only [mark?, hid, hne, decide_false, FrameEntry.isCie]⟩

/-- **One start an FDE**: where an entry was decoded, that of its range is told, if it has one. -/
theorem starts_decode (h : r.entry context index = .ok e) :
    Event.starts (narration (r.decode context index) r.body) = e.start?.toList := by
  obtain ⟨id, s, hid, hentry⟩ := entry_eq_ok_iff.mp h
  have hmark : ∀ events, Event.starts
      (.frame (.record r.offset id (id = context.kind.cieId)) :: events) = Event.starts events :=
    fun events ↦ rfl
  rw [narration_decode, hid]
  dsimp only
  rw [hmark, decodeEntry]
  rcases hentry with ⟨hcie, head, t, hfields, rfl⟩ | ⟨hne, cie, head, t, hfound, hfields, rfl⟩
  · rw [if_pos hcie]
    refine TellsOnly.starts_eq_nil ?_ s
    exact (Cie.tellsOnly_decode context r.offset r.isWide).bind fun _ ↦ tellsOnly_pure _
  · have hdecode := Fde.silent_decode_eq_ok_iff.mpr ⟨head, t, hfields, rfl, rfl⟩
    rw [if_neg hne]
    dsimp only
    rw [hfound]
    dsimp only
    rw [narration_bind_of_ok hdecode, narration_pure, List.append_nil]
    exact Fde.tellsStart_decode context r.offset r.isWide cie s _ _ hdecode

end RawRecord

end ElfUnwind
