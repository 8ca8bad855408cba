import ElfUnwind.Image.Frames
import ElfUnwind.Proofs.PartialIndex
import ElfUnwind.Proofs.TaskRuns
import ElfUnwind.Source.Schedule

/-!
# Requests for the frames of an image

What an image answers to requests in any order, over a medium that may fail in any way. A decode
that was completed settles its section for good, and so does one that met a malformed augmentation;
in every other case a request reads the section once and decodes it from nothing
(`Image.answer_afterRequests`).

## The three invariants

What is settled is a property of the kept state alone, and no request unsettles it
(`Image.state?_answers_of_settled`). Conversely nothing is settled that was not answered so before
(`Image.exists_isFinal_of_settled`), which is what makes a request after failures a new one. And
whatever is kept was decoded from bytes that a read on record has served (`Image.IsSound`).
-/

namespace ElfUnwind

/-- A request to an image. -/
inductive FrameRequest where
  /-- The frames of a kind, decoded if need be. -/
  | frames (kind : FrameSection)
  /-- What the last decode of a kind gave. -/
  | look (kind : FrameSection)
  /-- The contents of a section. -/
  | contents (name : String)

/-- What an image answers. -/
inductive FrameAnswer where
  /-- To a request for frames. -/
  | frames (kind : FrameSection) (outcome : Except Error DecodedFrames)
  /-- To a look. -/
  | look (kind : FrameSection) (kept : Option DecodedFrames)
  /-- To a request for the contents of a section. -/
  | contents (name : String) (outcome : Except Error (List UInt8))

/-- The answer settles a kind: all records were decoded, or an augmentation was malformed. -/
def FrameAnswer.IsFinal (kind : FrameSection) : FrameAnswer → Prop
  | frames other (.ok _) => other = kind
  | frames other (.error (.malformedAugmentation _ _)) => other = kind
  | _ => False

instance (kind : FrameSection) : DecidablePred (FrameAnswer.IsFinal kind)
  | .frames other (.ok _) | .frames other (.error (.malformedAugmentation _ _)) =>
    inferInstanceAs (Decidable (other = kind))
  | .frames _ (.error (.openFailed _ _)) | .frames _ (.error (.notAnImage _))
  | .frames _ (.error (.truncatedRead _ _)) | .frames _ (.error .missingNameTable)
  | .frames _ (.error (.missingSection _)) | .frames _ (.error (.unknownCie _ _))
  | .frames _ (.error (.invalidPointerEncoding _)) | .frames _ (.error (.unsupportedWidth _))
  | .frames _ (.error (.recordOverrun _)) | .look _ _ | .contents _ _ => .isFalse id

namespace Image

variable {σ : Type}

/-- The image over the medium that puts its reads on record. -/
def recorded (image : Image σ) : Image (List ReadRecord × σ) where
  path := image.path
  medium := image.medium.recorded
  header := image.header
  sections := image.sections
  segments := image.segments

/-- The answer to a request, and the state behind it. -/
def answer (image : Image σ) (s : FrameMemo × σ) :
    FrameRequest → FrameAnswer × (FrameMemo × σ)
  | .frames kind => (.frames kind ((image.readFrames kind).ends s).1,
      ((image.readFrames kind).ends s).2)
  | .look kind => (.look kind (s.1.frames? kind), s)
  | .contents name => (.contents name ((image.sectionData name).onSecond.ends s).1,
      ((image.sectionData name).onSecond.ends s).2)

/-- The answers to requests one after the other, and the state behind them. -/
def answers (image : Image σ) (s : FrameMemo × σ) :
    List FrameRequest → List FrameAnswer × (FrameMemo × σ)
  | [] => ([], s)
  | r :: rs => ((image.answer s r).1 :: (image.answers (image.answer s r).2 rs).1,
      (image.answers (image.answer s r).2 rs).2)

/-- The answers to requests from the start, with all reads on record. -/
def afterRequests (image : Image σ) (state : σ) (before : List FrameRequest) :
    List FrameAnswer × (FrameMemo × List ReadRecord × σ) :=
  image.recorded.answers ({}, [], state) before

/-- The pass over the bytes of a section that begins with an empty index, at the address of the
section. Addresses have four bytes in an image of 32 bits and eight in one of 64. -/
def freshPass (image : Image σ) (kind : FrameSection) (found : Section) (bytes : List UInt8) :
    Told (Except Error Unit × FrameIndex) :=
  (FrameIndex.empty kind).decodeInto
    ⟨kind, found.address, if image.header.elfClass = .elf32 then 4 else 8⟩ bytes

/-- How that pass ends, and the index that it leaves. -/
def freshDecode (image : Image σ) (kind : FrameSection) (found : Section) (bytes : List UInt8) :
    Except Error Unit × FrameIndex :=
  (image.freshPass kind found bytes).value

variable {image : Image σ} {kind : FrameSection} {found : Section} {bytes : List UInt8}
  {s : FrameMemo × σ}

theorem decodeInto_frameContext (image : Image σ) (kind : FrameSection) (found : Section)
    (bytes : List UInt8) :
    (FrameIndex.empty kind).decodeInto (image.frameContext kind found) bytes =
      image.freshPass kind found bytes := by
  rw [frameContext, freshPass, elfClass]
  cases image.header.elfClass <;> rfl

theorem isComplete_freshDecode (image : Image σ) (kind : FrameSection) (found : Section)
    (bytes : List UInt8) : (image.freshDecode kind found bytes).2.isComplete = false :=
  FrameIndex.isComplete_decodeInto _ bytes (FrameIndex.empty kind)

/-! ## What a request for frames does -/

theorem ends_readFrames_of_complete {frames : DecodedFrames}
    (h : s.1.state? kind = some (.complete frames)) :
    (image.readFrames kind).ends s = (.ok frames, s) := by
  rw [readFrames, Task.ends_bind_of_ok (Task.ends_get s)]
  simp only [h]
  rfl

theorem ends_readFrames_of_abandoned {frames : DecodedFrames} {offset : Nat}
    {augmentation : String} (h : s.1.state? kind = some (.abandoned frames offset augmentation)) :
    (image.readFrames kind).ends s = (.error (.malformedAugmentation offset augmentation), s) := by
  rw [readFrames, Task.ends_bind_of_ok (Task.ends_get s)]
  simp only [h]
  rfl

/-- Whether the kept state answers requests for a kind. -/
def IsSettled : Option FrameState → Prop
  | some (.complete _) => True
  | some (.abandoned _ _ _) => True
  | _ => False

/-- An unsettled request reads the section anew. -/
theorem runFrom_readFrames_of_not_settled (h : ¬IsSettled (s.1.state? kind)) :
    (image.readFrames kind).runFrom s =
      match image.section? kind.name with
      | none =>
        Task.runFrom (do
          Task.tell (.noFrames kind image.path)
          throw (.missingSection kind.name)) s
      | some found =>
        Task.runFrom (do
          let bytes ← (image.medium.readRange found.size found.offset).onSecond
          image.decodeFrames kind found bytes) s := by
  rw [readFrames, Task.runFrom_get_bind]
  split
  · rename_i hstate
    rw [hstate] at h
    exact absurd trivial h
  · rename_i hstate
    rw [hstate] at h
    exact absurd trivial h
  · cases image.section? kind.name with
    | none => rfl
    | some found => rfl

theorem ends_readFrames_of_not_settled (h : ¬IsSettled (s.1.state? kind)) :
    (image.readFrames kind).ends s =
      match image.section? kind.name with
      | none => (.error (.missingSection kind.name), s)
      | some found =>
        Task.ends (do
          let bytes ← (image.medium.readRange found.size found.offset).onSecond
          image.decodeFrames kind found bytes) s := by
  rw [Task.ends, runFrom_readFrames_of_not_settled h]
  cases image.section? kind.name with
  | none => rfl
  | some found => rfl

theorem ends_decodeFrames (image : Image σ) (kind : FrameSection) (found : Section)
    (bytes : List UInt8) (s : FrameMemo × σ) :
    (image.decodeFrames kind found bytes).ends s =
      match image.freshDecode kind found bytes with
      | (.ok (), index) =>
        (.ok ⟨s.1.decodes, index.completed⟩,
          (s.1.keep kind (.complete ⟨s.1.decodes, index.completed⟩), s.2))
      | (.error e, index) =>
        (.error e, (s.1.keep kind (.ofError ⟨s.1.decodes, index⟩ e), s.2)) := by
  rw [decodeFrames, Task.ends_bind_of_ok (Task.ends_ofTold _ s), decodeInto_frameContext,
    freshDecode]
  generalize (image.freshPass kind found bytes).value = r
  obtain ⟨_ | _, index⟩ := r
  · rfl
  · rfl

/-! ## Attempts -/

/-- What a request for frames can come to that is not settled: its outcome, the frames it has
decoded if it came so far, and the reads and the medium behind it. There is at most one read, and
the decode begins with an empty index. -/
inductive Attempt (image : Image σ) (kind : FrameSection) (stamp : ℕ) (r : List ReadRecord × σ) :
    Except Error DecodedFrames → Option DecodedFrames → List ReadRecord × σ → Prop where
  /-- There is no such section. -/
  | missing : image.section? kind.name = none →
      Attempt image kind stamp r (.error (.missingSection kind.name)) none r
  /-- The section does not lie within the medium. -/
  | refused {found : Section} : image.section? kind.name = some found →
      image.medium.size < found.offset.toNat + found.size.toNat →
      Attempt image kind stamp r
        (.error (.truncatedRead found.offset.toNat found.size.toNat)) none r
  /-- The read fails. -/
  | unread {found : Section} {e : Error} {t : σ} : image.section? kind.name = some found →
      (image.medium.read found.size.toNat found.offset).ends r.2 = (.error e, t) →
      Attempt image kind stamp r (.error e) none
        (r.1 ++ [⟨found.size.toNat, found.offset, .error e⟩], t)
  /-- The bytes are decoded to their end. -/
  | complete {found : Section} {bytes : List UInt8} {index : FrameIndex} {t : σ} :
      image.section? kind.name = some found →
      (image.medium.read found.size.toNat found.offset).ends r.2 = (.ok bytes, t) →
      image.freshDecode kind found bytes = (.ok (), index) →
      Attempt image kind stamp r (.ok ⟨stamp, { index with isComplete := true }⟩)
        (some ⟨stamp, { index with isComplete := true }⟩)
        (r.1 ++ [⟨found.size.toNat, found.offset, .ok bytes⟩], t)
  /-- The bytes cannot be decoded, and the frames are those of the part before. -/
  | failed {found : Section} {bytes : List UInt8} {e : Error} {index : FrameIndex} {t : σ} :
      image.section? kind.name = some found →
      (image.medium.read found.size.toNat found.offset).ends r.2 = (.ok bytes, t) →
      image.freshDecode kind found bytes = (.error e, index) →
      Attempt image kind stamp r (.error e) (some ⟨stamp, index⟩)
        (r.1 ++ [⟨found.size.toNat, found.offset, .ok bytes⟩], t)

/-- What is kept behind an attempt: what was kept before, or the frames that it has decoded. -/
def memoBehind (memo : FrameMemo) (kind : FrameSection) (outcome : Except Error DecodedFrames) :
    Option DecodedFrames → FrameMemo
  | none => memo
  | some decoded =>
    memo.keep kind (match outcome with
      | .ok _ => .complete decoded
      | .error e => .ofError decoded e)

section

variable {s t : FrameMemo × List ReadRecord × σ} {outcome : Except Error DecodedFrames}
  {decoded? : Option DecodedFrames} {memo : FrameMemo} {r r' : List ReadRecord × σ} {stamp : ℕ}

theorem state?_memoBehind_of_ne {other : FrameSection} (h : other ≠ kind) :
    (memoBehind memo kind outcome decoded?).state? other = memo.state? other := by
  cases decoded? with
  | none => rfl
  | some decoded => exact FrameMemo.state?_keep_of_ne h

/-- What was decoded before a failure is at hand, whether or not it may be shown. -/
theorem frames?_keep_ofError (memo : FrameMemo) (kind : FrameSection) (frames : DecodedFrames)
    (e : Error) : (memo.keep kind (.ofError frames e)).frames? kind = some frames := by
  rw [FrameMemo.frames?, FrameMemo.state?_keep_self]
  cases e <;> rfl

/-- The frames that an attempt has decoded are found by a look. -/
theorem frames?_memoBehind (memo : FrameMemo) (kind : FrameSection)
    (outcome : Except Error DecodedFrames) (decoded : DecodedFrames) :
    (memoBehind memo kind outcome (some decoded)).frames? kind = some decoded := by
  cases outcome with
  | ok frames =>
    rw [memoBehind, FrameMemo.frames?, FrameMemo.state?_keep_self]
    rfl
  | error e => exact frames?_keep_ofError memo kind decoded e

/-- **A request that is not settled is an attempt.** -/
theorem attempt_of_not_settled (image : Image σ) (h : ¬IsSettled (s.1.state? kind)) :
    ∃ decoded?, Attempt image kind s.1.decodes s.2 ((image.recorded.readFrames kind).ends s).1
        decoded? ((image.recorded.readFrames kind).ends s).2.2 ∧
      ((image.recorded.readFrames kind).ends s).2.1 =
        memoBehind s.1 kind ((image.recorded.readFrames kind).ends s).1 decoded? := by
  rw [ends_readFrames_of_not_settled h, show image.recorded.section? kind.name =
    image.section? kind.name from rfl]
  cases hfound : image.section? kind.name with
  | none => exact ⟨none, .missing hfound, rfl⟩
  | some found =>
    dsimp only
    by_cases hle : found.offset.toNat + found.size.toNat ≤ image.medium.size
    · have hrange := image.medium.recorded.ends_readRange_of_le hle s.2
      rw [Medium.ends_read_recorded] at hrange
      cases hread : (image.medium.read found.size.toNat found.offset).ends s.2.2 with
      | mk result u =>
        rw [hread] at hrange
        have hstep := Task.ends_onSecond
          (image.recorded.medium.readRange found.size found.offset) s
        rw [show (image.recorded.medium.readRange found.size found.offset).ends s.2 = _
          from hrange] at hstep
        cases result with
        | error e =>
          rw [Task.ends_bind_of_error hstep]
          exact ⟨none, .unread hfound hread, rfl⟩
        | ok bytes =>
          rw [Task.ends_bind_of_ok hstep, ends_decodeFrames]
          rw [show image.recorded.freshDecode kind found bytes =
            image.freshDecode kind found bytes from rfl]
          cases hdecode : image.freshDecode kind found bytes with
          | mk ended index =>
            cases ended with
            | error e => exact ⟨_, .failed hfound hread hdecode, rfl⟩
            | ok _ => exact ⟨_, .complete hfound hread hdecode, rfl⟩
    · have hlt := Nat.lt_of_not_le hle
      have hrange := image.medium.recorded.ends_readRange_of_lt hlt s.2
      have hstep := Task.ends_onSecond
        (image.recorded.medium.readRange found.size found.offset) s
      rw [show (image.recorded.medium.readRange found.size found.offset).ends s.2 = _
        from hrange] at hstep
      rw [Task.ends_bind_of_error hstep]
      exact ⟨none, .refused hfound hlt, rfl⟩

/-! ## What is settled stays settled -/

theorem settled_cases {state? : Option FrameState} (h : IsSettled state?) :
    (∃ frames, state? = some (.complete frames)) ∨
      ∃ frames offset augmentation, state? = some (.abandoned frames offset augmentation) := by
  cases state? with
  | none => exact absurd h id
  | some state =>
    cases state with
    | complete frames => exact Or.inl ⟨frames, rfl⟩
    | failed frames => exact absurd h id
    | abandoned frames offset augmentation => exact Or.inr ⟨frames, offset, augmentation, rfl⟩

theorem ends_readFrames_of_settled (image : Image σ) {s : FrameMemo × σ}
    (h : IsSettled (s.1.state? kind)) : ((image.readFrames kind).ends s).2 = s := by
  rcases settled_cases h with ⟨frames, hstate⟩ | ⟨frames, offset, augmentation, hstate⟩
  · rw [ends_readFrames_of_complete hstate]
  · rw [ends_readFrames_of_abandoned hstate]

/-- **No request unsettles a kind.** -/
theorem state?_answer_of_settled (image : Image σ) (h : IsSettled (s.1.state? kind))
    (r : FrameRequest) : (image.recorded.answer s r).2.1.state? kind = s.1.state? kind := by
  cases r with
  | look other => rfl
  | contents name => rfl
  | frames other =>
    change ((image.recorded.readFrames other).ends s).2.1.state? kind = _
    by_cases hother : IsSettled (s.1.state? other)
    · rw [ends_readFrames_of_settled image.recorded hother]
    · have hne : kind ≠ other := by
        rintro rfl
        exact hother h
      obtain ⟨decoded?, -, hmemo⟩ := attempt_of_not_settled image hother
      rw [hmemo, state?_memoBehind_of_ne hne]

theorem state?_answers_of_settled (image : Image σ) (h : IsSettled (s.1.state? kind))
    (rs : List FrameRequest) :
    (image.recorded.answers s rs).2.1.state? kind = s.1.state? kind := by
  induction rs generalizing s with
  | nil => rfl
  | cons r rs ih =>
    have hstep := state?_answer_of_settled image h r
    rw [answers, ih (by rw [hstep]; exact h), hstep]

/-- Whatever is requested from a state on, requests for a kind get one and the same answer and
change nothing, not even the record of reads, and a look finds the same frames. -/
def Settles (image : Image σ) (s : FrameMemo × List ReadRecord × σ) (kind : FrameSection)
    (outcome : Except Error DecodedFrames) (kept : DecodedFrames) : Prop :=
  ∀ later : List FrameRequest,
    image.recorded.answer (image.recorded.answers s later).2 (.frames kind) =
        (.frames kind outcome, (image.recorded.answers s later).2) ∧
      image.recorded.answer (image.recorded.answers s later).2 (.look kind) =
        (.look kind (some kept), (image.recorded.answers s later).2)

theorem settles_of_complete {frames : DecodedFrames}
    (h : s.1.state? kind = some (.complete frames)) :
    Settles image s kind (.ok frames) frames := by
  intro later
  have hkept : (image.recorded.answers s later).2.1.state? kind = some (.complete frames) := by
    rw [state?_answers_of_settled image (by rw [h]; trivial), h]
  constructor
  · rw [answer, ends_readFrames_of_complete hkept]
  · rw [answer, FrameMemo.frames?, hkept]
    rfl

theorem settles_of_abandoned {frames : DecodedFrames} {offset : Nat} {augmentation : String}
    (h : s.1.state? kind = some (.abandoned frames offset augmentation)) :
    Settles image s kind (.error (.malformedAugmentation offset augmentation)) frames := by
  intro later
  have hkept : (image.recorded.answers s later).2.1.state? kind =
      some (.abandoned frames offset augmentation) := by
    rw [state?_answers_of_settled image (by rw [h]; trivial), h]
  constructor
  · rw [answer, ends_readFrames_of_abandoned hkept]
  · rw [answer, FrameMemo.frames?, hkept]
    rfl

/-! ## What is settled was answered -/

theorem isFinal_of_attempt {other : FrameSection}
    (h : Attempt image other stamp r outcome decoded? r')
    (hsettled : IsSettled ((memoBehind memo other outcome decoded?).state? kind)) :
    IsSettled (memo.state? kind) ∨ (FrameAnswer.frames other outcome).IsFinal kind := by
  by_cases hother : kind = other
  · subst hother
    cases h with
    | missing | refused | unread => exact Or.inl hsettled
    | complete => exact Or.inr rfl
    | @failed _ _ e =>
      rw [memoBehind, FrameMemo.state?_keep_self] at hsettled
      cases e with
      | malformedAugmentation offset augmentation => exact Or.inr rfl
      | _ => exact absurd hsettled id
  · rw [state?_memoBehind_of_ne hother] at hsettled
    exact Or.inl hsettled

theorem isFinal_of_settled_answer (image : Image σ) (r : FrameRequest)
    (h : IsSettled ((image.recorded.answer s r).2.1.state? kind)) :
    IsSettled (s.1.state? kind) ∨ (image.recorded.answer s r).1.IsFinal kind := by
  cases r with
  | look other => exact Or.inl h
  | contents name => exact Or.inl h
  | frames other =>
    by_cases hother : IsSettled (s.1.state? other)
    · rw [answer, ends_readFrames_of_settled image.recorded hother] at h
      exact Or.inl h
    · obtain ⟨decoded?, hattempt, hmemo⟩ := attempt_of_not_settled image hother
      exact isFinal_of_attempt hattempt (hmemo ▸ h)

/-- **A kind is settled by an answer**, unless it was from the start. -/
theorem exists_isFinal_of_settled (image : Image σ) (rs : List FrameRequest)
    (h : IsSettled ((image.recorded.answers s rs).2.1.state? kind)) :
    IsSettled (s.1.state? kind) ∨ ∃ a ∈ (image.recorded.answers s rs).1, a.IsFinal kind := by
  induction rs generalizing s with
  | nil => exact Or.inl h
  | cons r rs ih =>
    rcases ih h with hsettled | ⟨a, ha, hfinal⟩
    · rcases isFinal_of_settled_answer image r hsettled with hbefore | hfinal
      · exact Or.inl hbefore
      · exact Or.inr ⟨_, List.mem_cons_self, hfinal⟩
    · exact Or.inr ⟨a, List.mem_cons_of_mem _ ha, hfinal⟩

/-! ## Where kept frames come from -/

/-- A read on record has served the section, and its bytes decode to this index with this end. -/
def Served (image : Image σ) (kind : FrameSection) (reads : List ReadRecord)
    (ending : Except Error Unit) (index : FrameIndex) : Prop :=
  ∃ found bytes, image.section? kind.name = some found ∧
    ⟨found.size.toNat, found.offset, .ok bytes⟩ ∈ reads ∧
    image.freshDecode kind found bytes = (ending, index)

theorem Served.mono {reads more : List ReadRecord} {ending : Except Error Unit}
    {index : FrameIndex} (h : image.Served kind reads ending index) (hreads : reads ⊆ more) :
    image.Served kind more ending index := by
  obtain ⟨found, bytes, hfound, hmem, hdecode⟩ := h
  exact ⟨found, bytes, hfound, hreads hmem, hdecode⟩

/-- The state says how the decode of its frames has ended. -/
def Vouches (image : Image σ) (kind : FrameSection) (reads : List ReadRecord) : FrameState → Prop
  | .complete frames => ∃ index, frames.index = { index with isComplete := true } ∧
      image.Served kind reads (.ok ()) index
  | .failed frames => ∃ e, image.Served kind reads (.error e) frames.index
  | .abandoned frames offset augmentation =>
    image.Served kind reads (.error (.malformedAugmentation offset augmentation)) frames.index

theorem Vouches.mono {reads more : List ReadRecord} {state : FrameState}
    (h : image.Vouches kind reads state) (hreads : reads ⊆ more) :
    image.Vouches kind more state := by
  cases state with
  | complete frames =>
    obtain ⟨index, hindex, hserved⟩ := h
    exact ⟨index, hindex, hserved.mono hreads⟩
  | failed frames =>
    obtain ⟨e, hserved⟩ := h
    exact ⟨e, hserved.mono hreads⟩
  | abandoned frames offset augmentation => exact Served.mono h hreads

/-- What is kept was decoded from what reads on record have served, and is numbered. -/
def IsSound (image : Image σ) (s : FrameMemo × List ReadRecord × σ) : Prop :=
  ∀ kind state, s.1.state? kind = some state →
    image.Vouches kind s.2.1 state ∧ state.frames.stamp < s.1.decodes

theorem isSound_start (image : Image σ) (state : σ) : image.IsSound ({}, [], state) := by
  intro kind kept h
  cases kind <;> cases h

theorem IsSound.mono (hs : image.IsSound s) (hmemo : t.1 = s.1) (hreads : s.2.1 ⊆ t.2.1) :
    image.IsSound t := by
  intro kind state h
  rw [hmemo] at h ⊢
  obtain ⟨hvouches, hstamp⟩ := hs kind state h
  exact ⟨hvouches.mono hreads, hstamp⟩

theorem decodes_keep (memo : FrameMemo) (kind : FrameSection) (state : FrameState) :
    (memo.keep kind state).decodes = memo.decodes + 1 := by
  cases kind <;> rfl

theorem IsSound.keep (hs : image.IsSound s) (hreads : s.2.1 ⊆ r.1) {state : FrameState}
    (hvouches : image.Vouches kind r.1 state) (hstamp : state.frames.stamp = s.1.decodes) :
    image.IsSound (s.1.keep kind state, r) := by
  intro other state' hother
  dsimp only at hother ⊢
  rw [decodes_keep]
  by_cases heq : other = kind
  · -- The number of this decode is the one behind all numbers so far.
    subst heq
    rw [FrameMemo.state?_keep_self] at hother
    obtain rfl := Option.some.inj hother
    exact ⟨hvouches, by omega⟩
  · rw [FrameMemo.state?_keep_of_ne heq] at hother
    obtain ⟨hbefore, hlt⟩ := hs other state' hother
    exact ⟨hbefore.mono hreads, by omega⟩

/-- A read that is put on record takes none off it. -/
theorem reads_of_attempt (h : Attempt image kind stamp r outcome decoded? r') : r.1 ⊆ r'.1 := by
  cases h with
  | missing | refused => exact List.Subset.refl _
  | unread | complete | failed => exact List.subset_append_left _ _

theorem IsSound.of_attempt (hs : image.IsSound s)
    (h : Attempt image kind s.1.decodes s.2 outcome decoded? r') :
    image.IsSound (memoBehind s.1 kind outcome decoded?, r') := by
  have hreads := reads_of_attempt h
  cases h with
  | missing | refused | unread => exact hs.mono rfl hreads
  | complete hfound hread hdecode =>
    refine hs.keep hreads ⟨_, rfl, _, _, hfound, ?_, hdecode⟩ rfl
    exact List.mem_append_right _ (List.mem_singleton_self _)
  | @failed _ _ e _ _ hfound hread hdecode =>
    have hserved : image.Served kind _ (.error e) _ :=
      ⟨_, _, hfound, List.mem_append_right s.2.1 (List.mem_singleton_self _), hdecode⟩
    refine hs.keep hreads ?_ ?_
    · cases e with
      | malformedAugmentation offset augmentation => exact hserved
      | _ => exact ⟨_, hserved⟩
    · cases e <;> rfl

theorem reads_sectionData (image : Image σ) (name : String) (r : List ReadRecord × σ) :
    r.1 ⊆ ((image.recorded.sectionData name).ends r).2.1 := by
  rw [sectionData, show image.recorded.section? name = image.section? name from rfl]
  cases image.section? name with
  | none => exact List.Subset.refl _
  | some found =>
    dsimp only
    by_cases hle : found.offset.toNat + found.size.toNat ≤ image.medium.size
    · rw [show image.recorded.medium = image.medium.recorded from rfl,
        image.medium.recorded.ends_readRange_of_le hle, Medium.ends_read_recorded]
      exact List.subset_append_left _ _
    · rw [show image.recorded.medium = image.medium.recorded from rfl,
        image.medium.recorded.ends_readRange_of_lt (Nat.lt_of_not_le hle)]
      exact List.Subset.refl _

theorem IsSound.answer (hs : image.IsSound s) (r : FrameRequest) :
    image.IsSound (image.recorded.answer s r).2 := by
  cases r with
  | look other => exact hs
  | contents name => exact hs.mono rfl (reads_sectionData image name s.2)
  | frames other =>
    by_cases hother : IsSettled (s.1.state? other)
    · rw [Image.answer, ends_readFrames_of_settled image.recorded hother]
      exact hs
    · obtain ⟨decoded?, hattempt, hmemo⟩ := attempt_of_not_settled image hother
      have hsound := hs.of_attempt hattempt
      rw [← hmemo] at hsound
      exact hsound

theorem IsSound.answers (hs : image.IsSound s) (rs : List FrameRequest) :
    image.IsSound (image.recorded.answers s rs).2 := by
  induction rs generalizing s with
  | nil => exact hs
  | cons r rs ih => exact ih (hs.answer r)

/-! ## Answers -/

/-- A request for frames is answered by what is kept, or it is an attempt. -/
theorem answer_frames_cases (image : Image σ) (s : FrameMemo × List ReadRecord × σ)
    (kind : FrameSection) :
    (∃ frames, s.1.state? kind = some (.complete frames) ∧
        image.recorded.answer s (.frames kind) = (.frames kind (.ok frames), s)) ∨
      (∃ frames offset augmentation,
        s.1.state? kind = some (.abandoned frames offset augmentation) ∧
        image.recorded.answer s (.frames kind) =
          (.frames kind (.error (.malformedAugmentation offset augmentation)), s)) ∨
      (¬IsSettled (s.1.state? kind) ∧ ∃ outcome decoded? r,
        image.recorded.answer s (.frames kind) =
          (.frames kind outcome, memoBehind s.1 kind outcome decoded?, r) ∧
        Attempt image kind s.1.decodes s.2 outcome decoded? r) := by
  by_cases hsettled : IsSettled (s.1.state? kind)
  · rcases settled_cases hsettled with ⟨frames, hstate⟩ | ⟨frames, offset, augmentation, hstate⟩
    · refine Or.inl ⟨frames, hstate, ?_⟩
      rw [answer, ends_readFrames_of_complete hstate]
    · refine Or.inr (Or.inl ⟨frames, offset, augmentation, hstate, ?_⟩)
      rw [answer, ends_readFrames_of_abandoned hstate]
  · obtain ⟨decoded?, hattempt, hmemo⟩ := attempt_of_not_settled image hsettled
    refine Or.inr (Or.inr ⟨hsettled, _, decoded?, _, ?_, hattempt⟩)
    rw [← hmemo]
    rfl

/-- An answer with frames has kept them. -/
theorem state?_of_answer_ok {frames : DecodedFrames}
    (h : (image.recorded.answer s (.frames kind)).1 = .frames kind (.ok frames)) :
    (image.recorded.answer s (.frames kind)).2.1.state? kind = some (.complete frames) := by
  rcases answer_frames_cases image s kind with
    ⟨kept, hstate, heq⟩ | ⟨kept, offset, augmentation, -, heq⟩ |
      ⟨-, outcome, decoded?, r, heq, hattempt⟩
  · rw [heq] at h ⊢
    cases h
    exact hstate
  · rw [heq] at h
    cases h
  · rw [heq] at h ⊢
    cases h
    cases hattempt
    exact FrameMemo.state?_keep_self _ _ _

/-- An answer with a malformed augmentation that was not the failure of a read has kept it. -/
theorem exists_state?_of_answer_malformed {offset : Nat} {augmentation : String}
    (h : (image.recorded.answer s (.frames kind)).1 =
      .frames kind (.error (.malformedAugmentation offset augmentation)))
    (hreads : ∀ r ∈ (image.recorded.answer s (.frames kind)).2.2.1,
      r.outcome ≠ .error (.malformedAugmentation offset augmentation)) :
    ∃ frames, (image.recorded.answer s (.frames kind)).2.1.state? kind =
      some (.abandoned frames offset augmentation) := by
  rcases answer_frames_cases image s kind with
    ⟨kept, hstate, heq⟩ | ⟨kept, offset', augmentation', hstate, heq⟩ |
      ⟨-, outcome, decoded?, r, heq, hattempt⟩
  · rw [heq] at h
    cases h
  · rw [heq] at h ⊢
    cases h
    exact ⟨kept, hstate⟩
  · rw [heq] at h hreads ⊢
    cases h
    cases hattempt with
    | unread => exact absurd rfl (hreads _ (List.mem_append_right _ List.mem_cons_self))
    | failed => exact ⟨_, FrameMemo.state?_keep_self _ _ _⟩

end

/-- **Frame requests are settled once and for all, or tried anew.** After any requests from the
start, for each kind: an answer with frames settles the kind, and the frames are what the bytes of a
read on record decode to, marked as complete; an answer with a malformed augmentation settles it
too, unless it was a read that failed so, and the frames that a look finds from then on are those of
the part before in the decode that met it. Without such an answer before, a request is an attempt.
An attempt that does not come to decode leaves all that is kept as it is; of one that does a look
finds the frames, under a number that none of those kept before has, and those of the other kind are
left as they are. -/
theorem answer_afterRequests (image : Image σ) (state : σ) (before : List FrameRequest)
    (kind : FrameSection) :
    let s := (image.afterRequests state before).2
    (∀ frames u,
        image.recorded.answer s (.frames kind) = (.frames kind (.ok frames), u) →
        frames.index.isComplete = true ∧ Settles image u kind (.ok frames) frames ∧
          ∃ index, frames.index = { index with isComplete := true } ∧
            image.Served kind u.2.1 (.ok ()) index) ∧
      (∀ offset augmentation u,
        image.recorded.answer s (.frames kind) =
          (.frames kind (.error (.malformedAugmentation offset augmentation)), u) →
        (∀ r ∈ u.2.1, r.outcome ≠ .error (.malformedAugmentation offset augmentation)) →
        ∃ kept, kept.index.isComplete = false ∧
          Settles image u kind (.error (.malformedAugmentation offset augmentation)) kept ∧
          image.Served kind u.2.1 (.error (.malformedAugmentation offset augmentation))
            kept.index) ∧
      ((∀ a ∈ (image.afterRequests state before).1, ¬a.IsFinal kind) →
        ∃ outcome decoded? memo r,
          image.recorded.answer s (.frames kind) = (.frames kind outcome, memo, r) ∧
          Attempt image kind s.1.decodes s.2 outcome decoded? r ∧
          (decoded? = none → memo = s.1) ∧
          (∀ decoded, decoded? = some decoded → memo.frames? kind = some decoded) ∧
          (∀ other, other ≠ kind → memo.frames? other = s.1.frames? other)) ∧
      ∀ other kept, s.1.frames? other = some kept → kept.stamp < s.1.decodes := by
  intro s
  have hsound : image.IsSound s := (isSound_start image state).answers before
  have hnext := hsound.answer (.frames kind)
  refine ⟨?complete, ?malformed, ?attempt, ?numbers⟩
  case complete =>
    -- The answer is kept, and what is kept was decoded from a read on record.
    intro frames u heq
    have hstate := state?_of_answer_ok (congrArg Prod.fst heq)
    rw [heq] at hstate hnext
    obtain ⟨⟨index, hindex, hserved⟩, -⟩ := hnext kind _ hstate
    exact ⟨by rw [hindex], settles_of_complete hstate, index, hindex, hserved⟩
  case malformed =>
    intro offset augmentation u heq hreads
    obtain ⟨kept, hstate⟩ := exists_state?_of_answer_malformed (congrArg Prod.fst heq)
      (by rwa [heq])
    rw [heq] at hstate hnext
    obtain ⟨hserved, -⟩ := hnext kind _ hstate
    refine ⟨kept, ?_, settles_of_abandoned hstate, hserved⟩
    obtain ⟨found, bytes, -, -, hdecode⟩ := hserved
    have hcomplete := image.isComplete_freshDecode kind found bytes
    rwa [hdecode] at hcomplete
  case attempt =>
    -- Nothing is settled without an answer that says so, so the request is not answered from what
    -- is kept.
    intro hopen
    have hunsettled : ¬IsSettled (s.1.state? kind) := by
      intro hsettled
      rcases exists_isFinal_of_settled image before hsettled with hstart | ⟨a, ha, hfinal⟩
      · cases kind <;> exact hstart
      · exact hopen a ha hfinal
    obtain ⟨decoded?, hattempt, hmemo⟩ := attempt_of_not_settled image hunsettled
    refine ⟨_, decoded?, _, _, rfl, hattempt, ?_, ?_, ?_⟩
    · rintro rfl
      exact hmemo
    · rintro decoded rfl
      rw [hmemo, frames?_memoBehind]
    · intro other hne
      rw [hmemo, FrameMemo.frames?, state?_memoBehind_of_ne hne, FrameMemo.frames?]
  case numbers =>
    intro other kept h
    obtain ⟨state, hstate, rfl⟩ := Option.map_eq_some_iff.mp h
    exact (hsound other state hstate).2

/-- A failure can be told without what a success would give. -/
theorem eq_error_of_map {α β : Type} {f : α → β} {outcome : Except Error α} {e : Error}
    (h : outcome.map f = .error e) : outcome = .error e := by
  cases outcome with
  | ok a => cases h
  | error e' => exact congrArg Except.error (Except.error.inj h)

/-- An image of 32 bits with a CIE in each frame section. Behind that of `.eh_frame` there is one
whose augmentation is `eh`. -/
def retriedImage : Image Schedule where
  path := "a.out"
  medium := Schedule.medium
    [9, 0, 0, 0, 0, 0, 0, 0, 1, 0, 1, 0x78, 16,
      9, 0, 0, 0, 0, 0, 0, 0, 1, 0x65, 0x68, 0, 1,
      9, 0, 0, 0, 0xff, 0xff, 0xff, 0xff, 1, 0, 1, 0x78, 16]
  header := ⟨.elf32, 2, 3, 0, 0, 0, 0, 52, 0, 0, 0, 0, 0⟩
  sections := (SortedMap.empty.insert ".eh_frame" ⟨".eh_frame", 1, 2, 0x1000, 0, 26⟩).insert
    ".debug_frame" ⟨".debug_frame", 1, 0, 0, 26, 13⟩
  segments := []

/-- The first read of `.eh_frame` fails and settles nothing. The second decodes one CIE and settles
the section, and what was decoded of the other one stays. -/
theorem answer_afterRequests_retried :
    let before : List FrameRequest := [.frames .ehFrame, .frames .debugFrame]
    let s := (retriedImage.afterRequests ⟨[⟨0, 0, 1⟩], 0⟩ before).2
    ∃ kept memo r,
      retriedImage.recorded.answer s (.frames .ehFrame) =
        (.frames .ehFrame (.error (.malformedAugmentation 13 "eh")), memo, r) ∧
      memo.frames? .ehFrame = some kept ∧ kept.index.cies.keys = [0] ∧
      kept.index.isComplete = false ∧ kept.stamp = 1 ∧
      Settles retriedImage (memo, r) .ehFrame (.error (.malformedAugmentation 13 "eh")) kept ∧
      memo.frames? .debugFrame = s.1.frames? .debugFrame ∧
      (memo.frames? .debugFrame).map (fun frames ↦ frames.index.isComplete) = some true := by
  intro before s
  obtain ⟨-, hmalformed, hattempts, -⟩ :=
    answer_afterRequests retriedImage ⟨[⟨0, 0, 1⟩], 0⟩ before .ehFrame
  have hopen : ∀ a ∈ (retriedImage.afterRequests ⟨[⟨0, 0, 1⟩], 0⟩ before).1,
      ¬a.IsFinal .ehFrame := by decide +kernel
  obtain ⟨outcome, -, memo, r, heq, -, -, -, hothers⟩ := hattempts hopen
  have hends : ((retriedImage.recorded.readFrames .ehFrame).ends s).1.map (fun _ ↦ ()) =
      .error (.malformedAugmentation 13 "eh") := by decide +kernel
  have hlook : ((retriedImage.recorded.answer s (.frames .ehFrame)).2.1.frames? .ehFrame).map
      (fun frames ↦ (frames.index.cies.keys, frames.stamp)) = some ([0], 1) := by decide +kernel
  have hreads : ∀ read ∈ (retriedImage.recorded.answer s (.frames .ehFrame)).2.2.1,
      read.outcome ≠ .error (.malformedAugmentation 13 "eh") := by decide +kernel
  obtain rfl : outcome = .error (.malformedAugmentation 13 "eh") :=
    (FrameAnswer.frames.inj (congrArg Prod.fst heq)).2.symm.trans (eq_error_of_map hends)
  rw [heq] at hlook hreads
  obtain ⟨kept, hpartial, hsettles, -⟩ := hmalformed 13 "eh" (memo, r) heq hreads
  obtain ⟨-, hfound⟩ := FrameAnswer.look.inj (congrArg Prod.fst (hsettles []).2)
  rw [show memo.frames? .ehFrame = some kept from hfound] at hlook
  obtain ⟨hkeys, hstamp⟩ := Prod.mk.inj (Option.some.inj hlook)
  refine ⟨kept, memo, r, heq, hfound, hkeys, hpartial, hstamp, hsettles, hothers _ (by decide), ?_⟩
  rw [hothers _ (by decide)]
  decide +kernel

end Image

end ElfUnwind
