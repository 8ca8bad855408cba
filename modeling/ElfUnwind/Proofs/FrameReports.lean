import ElfUnwind.Image.Writer
import ElfUnwind.Proofs.AddressLookup
import ElfUnwind.Proofs.BackReferences
import ElfUnwind.Proofs.FrameRequests
import ElfUnwind.Proofs.ListingLines
import ElfUnwind.Proofs.Opening

/-!
# What the command shows of frames

A run that was asked for frames opens an image and decodes one section of it. Where that leaves an
index that is not in doubt, the run succeeds and shows the entries of the index, under a warning if
there could have been more; in every other case it fails, shows nothing and gives the cause
(`Invocation.run_answers_or_refuses`).

## The two halves

How the section is read and decoded is said without the command (`Image.Decodes`,
`Image.CannotRead`), and one of the two always holds. What the command says is a function of that
alone, since an image that was just opened has no frames from before.
-/

namespace ElfUnwind

open CommandLine

/-! ## What reading a section comes to -/

namespace Image

variable {σ : Type} {image : Image σ} {kind : FrameSection} {s : σ} {e : Error}
  {ending : Except Error Unit} {index : FrameIndex}

/-- The section is there and is read, and its bytes decode from nothing to the given index, with the
given end. -/
def Decodes (image : Image σ) (kind : FrameSection) (s : σ) (ending : Except Error Unit)
    (index : FrameIndex) : Prop :=
  ∃ found bytes t,
    image.section? kind.name = some found ∧
    found.offset.toNat + found.size.toNat ≤ image.medium.size ∧
    (image.medium.read found.size.toNat found.offset).ends s = (.ok bytes, t) ∧
    image.freshDecode kind found bytes = (ending, index)

/-- The section cannot be read. -/
inductive CannotRead (image : Image σ) (kind : FrameSection) (s : σ) : Error → Prop where
  /-- It is not there. -/
  | missing : image.section? kind.name = none → CannotRead image kind s (.missingSection kind.name)
  /-- It does not lie within the medium. -/
  | outside {found : Section} : image.section? kind.name = some found →
      image.medium.size < found.offset.toNat + found.size.toNat →
      CannotRead image kind s (.truncatedRead found.offset.toNat found.size.toNat)
  /-- The read fails. -/
  | failed {found : Section} {e : Error} {t : σ} : image.section? kind.name = some found →
      found.offset.toNat + found.size.toNat ≤ image.medium.size →
      (image.medium.read found.size.toNat found.offset).ends s = (.error e, t) →
      CannotRead image kind s e

theorem decodes_or_cannotRead (image : Image σ) (kind : FrameSection) (s : σ) :
    (∃ ending index, image.Decodes kind s ending index) ∨ ∃ e, image.CannotRead kind s e := by
  cases hfound : image.section? kind.name with
  | none => exact Or.inr ⟨_, .missing hfound⟩
  | some found =>
    by_cases hle : found.offset.toNat + found.size.toNat ≤ image.medium.size
    · rcases hread : (image.medium.read found.size.toNat found.offset).ends s with
        ⟨e | bytes, t⟩
      · exact Or.inr ⟨e, .failed hfound hle hread⟩
      · exact Or.inl ⟨_, _, ⟨found, bytes, t, hfound, hle, hread, rfl⟩⟩
    · exact Or.inr ⟨_, .outside hfound (Nat.lt_of_not_le hle)⟩

/-- An image that was just opened reads the section. -/
theorem ends_readFrames_first (image : Image σ) (kind : FrameSection) (s : σ) :
    (image.readFrames kind).ends ({}, s) =
      match image.section? kind.name with
      | none => (.error (.missingSection kind.name), {}, s)
      | some found =>
        Task.ends (do
          let bytes ← (image.medium.readRange found.size found.offset).onSecond
          image.decodeFrames kind found bytes) ({}, s) :=
  ends_readFrames_of_not_settled (by cases kind <;> exact id)

/-- Nothing is kept where the section cannot be read. -/
theorem CannotRead.ends_readFrames (h : image.CannotRead kind s e) :
    ∃ t, (image.readFrames kind).ends ({}, s) = (.error e, {}, t) := by
  rw [ends_readFrames_first]
  rcases h with hnone | ⟨hfound, hlt⟩ | @⟨_, _, t, hfound, hle, hread⟩
  · exact ⟨s, by rw [hnone]⟩
  · simp only [hfound]
    refine ⟨s, Task.ends_bind_of_error ?_⟩
    rw [Task.ends_onSecond, Medium.ends_readRange_of_lt _ hlt]
  · simp only [hfound]
    refine ⟨t, Task.ends_bind_of_error ?_⟩
    rw [Task.ends_onSecond, Medium.ends_readRange_of_le _ hle, hread]

/-- What was decoded is kept, also behind a failure. -/
theorem Decodes.ends_readFrames (h : image.Decodes kind s ending index) :
    ∃ t, (image.readFrames kind).ends ({}, s) =
      match ending with
      | .ok _ =>
        (.ok ⟨0, index.completed⟩, FrameMemo.keep {} kind (.complete ⟨0, index.completed⟩), t)
      | .error e => (.error e, FrameMemo.keep {} kind (.ofError ⟨0, index⟩ e), t) := by
  obtain ⟨found, bytes, t, hfound, hle, hread, hdecode⟩ := h
  have hrange : (image.medium.readRange found.size found.offset).onSecond.ends
      (({}, s) : FrameMemo × σ) = (.ok bytes, {}, t) := by
    rw [Task.ends_onSecond, Medium.ends_readRange_of_le _ hle, hread]
  refine ⟨t, ?_⟩
  rw [ends_readFrames_first]
  simp only [hfound]
  rw [Task.ends_bind_of_ok hrange, ends_decodeFrames, hdecode]
  rcases ending with e | ⟨⟩
  · rfl
  · rfl

end Image

/-! ## The entries of an index in order -/

theorem SortedMap.length_values {κ β : Type} [LT κ] (m : SortedMap κ β) :
    m.values.length = m.size := by
  rw [values, List.length_map, length_entries]

namespace FrameIndex

variable {context : FrameContext} {bytes : List UInt8} {ps : List Piece} {index : FrameIndex}

/-- The entries of an index are these CIEs, by ascending offsets, and these FDEs, by ascending
starts. -/
structure ListedBy (index : FrameIndex) (cies : List Cie) (fdes : List Fde) : Prop where
  ciesAscend : cies.Pairwise fun a b ↦ a.offset < b.offset
  mem_cies : ∀ offset cie, index.cie? offset = some cie ↔ cie ∈ cies ∧ cie.offset = offset
  fdesAscend : fdes.Pairwise fun a b ↦ a.start < b.start
  mem_fdes : ∀ start fde, index.fde? start = some fde ↔ fde ∈ fdes ∧ fde.start = start

theorem linked_value_decodeInto (context : FrameContext) (kind : FrameSection)
    (bytes : List UInt8) :
    Linked context bytes (Layout.ofSection context.kind bytes).pieces
      ((empty kind).decodeInto context bytes).value.2 := by
  obtain ⟨stop, htiles, -⟩ := Layout.tiles_ofSectionFrom context.kind (Nat.zero_le bytes.length)
  have hvalue : ((empty kind).decodeInto context bytes).value =
      decodeLayout context bytes (Layout.ofSection context.kind bytes) (empty kind) :=
    value_decodeFrom_drop context bytes 0 (empty kind)
  rw [hvalue, decodeLayout_snd]
  exact (linked_empty context bytes kind).decodePieces htiles

/-- Each entry has its own offset or start for a key. -/
theorem Linked.listedBy (h : Linked context bytes ps index) :
    index.ListedBy index.cies.values index.fdes.values := by
  have hcies : ∀ offset cie, index.cies.get? offset = some cie → cie.offset = offset :=
    fun offset cie hcie ↦ (h.cies offset cie hcie).1
  have hfdes : ∀ start fde, index.fdes.get? start = some fde → fde.start = start :=
    fun start fde hfde ↦ (h.fdes start fde hfde).1
  exact ⟨SortedMap.values_ascending hcies,
    fun _ _ ↦ SortedMap.get?_eq_some_iff_mem_values hcies,
    SortedMap.values_ascending hfdes, fun _ _ ↦ SortedMap.get?_eq_some_iff_mem_values hfdes⟩

end FrameIndex

/-- The augmentation string is the only text of the file that a listing of entries shows. Had it not
been understood, there would be no entry. -/
theorem Cie.IsUnderstood.isPlain_augmentation {addressSize : UInt8} {c : Cie}
    (h : c.IsUnderstood addressSize) : Text.IsPlain c.augmentation := by
  rcases h.augmentation with hempty | ⟨letters, hletters, hknown⟩
  · rw [hempty]
    decide
  · rw [Text.IsPlain, hletters]
    refine List.forall_mem_cons.mpr ⟨by decide, fun letter hmem ↦ ?_⟩
    rcases hknown letter hmem with rfl | rfl | rfl
    · decide
    · decide
    · decide

theorem FrameIndex.Linked.isPlain_augmentation {context : FrameContext} {bytes : List UInt8}
    {ps : List Piece} {index : FrameIndex} (h : Linked context bytes ps index) :
    ∀ c ∈ index.cies.values, Text.IsPlain c.augmentation := by
  intro c hc
  obtain ⟨⟨offset, c⟩, hmem, rfl⟩ := List.mem_map.mp hc
  exact (h.cies offset c (SortedMap.get?_eq_some_iff.mpr hmem)).2.2.isPlain_augmentation

theorem Image.Decodes.exists_linked {σ : Type} {image : Image σ} {kind : FrameSection} {s : σ}
    {ending : Except Error Unit} {index : FrameIndex} (h : image.Decodes kind s ending index) :
    ∃ context bytes ps, FrameIndex.Linked context bytes ps index := by
  obtain ⟨found, bytes, t, -, -, -, hdecode⟩ := h
  have hlinked := FrameIndex.linked_value_decodeInto (image.frameContext kind found) kind bytes
  rw [decodeInto_frameContext, ← freshDecode, hdecode] at hlinked
  exact ⟨_, bytes, _, hlinked⟩

/-! ## What is shown -/

namespace CommandLine

open Text (inHex)

/-- The kind of the frames a request is about. -/
def Request.frameSection? : Request → Option FrameSection
  | cies kind => some kind
  | fdes kind => some kind
  | lookup _ kind => some kind
  | _ => none

/-- A byte as two digits to base sixteen. -/
def twoDigits (b : UInt8) : String :=
  String.ofList [Nat.digitChar (b.toNat / 16), Nat.digitChar (b.toNat % 16)]

/-- A text that answers a request from an index that lists these entries: a listing with a row for
each entry, or what is said of the FDE that covers the address. -/
inductive Request.Shows (json : Bool) (index : FrameIndex) (cies : List Cie) (fdes : List Fde) :
    Request → String → Prop where
  | cies {kind : FrameSection} {l : Listing} {text : String} :
      l.Lists cieColumns cies cieValues → l.IsPlain →
      l.Shows ("No CIEs in " ++ kind.name ++ ".") json text →
      Shows json index cies fdes (.cies kind) text
  | fdes {kind : FrameSection} {l : Listing} {text : String} :
      l.Lists fdeColumns fdes fdeValues → l.IsPlain →
      l.Shows ("No FDEs in " ++ kind.name ++ ".") json text →
      Shows json index cies fdes (.fdes kind) text
  | covered {address : UInt64} {kind : FrameSection} {fde : Fde} :
      index.findFde? address = some fde →
      Shows json index cies fdes (.lookup address kind)
        (inHex address.toNat ++ " is in [" ++ inHex fde.start.toNat ++ " - " ++
          inHex fde.stop.toNat ++ ") (FDE at " ++ inHex fde.offset ++ ", CIE at " ++
          inHex fde.cie.offset ++ ")\n" ++
          "Pointer encoding: " ++ fde.cie.addressEncoding.text ++ "\n" ++
          "Instructions: [" ++ ", ".intercalate (fde.instructions.map twoDigits) ++ "]\n")
  | uncovered {address : UInt64} {kind : FrameSection} :
      index.findFde? address = none →
      Shows json index cies fdes (.lookup address kind)
        ("No FDE in " ++ kind.name ++ " covers " ++ inHex address.toNat ++ ".\n")

/-- An error in words. Places are to base sixteen, and counts to base ten. -/
def wording : Error → String
  | .openFailed path cause => "failed to open " ++ path ++ ": " ++ cause.message
  | .notAnImage fault => "invalid ELF image: " ++ fault.message
  | .truncatedRead offset length =>
    "truncated read of " ++ toString length ++ " bytes at offset " ++ inHex offset
  | .missingNameTable => "section header string table index is zero"
  | .missingSection name => "no " ++ name ++ " section"
  | .unknownCie fdeOffset cieOffset =>
    "FDE at " ++ inHex fdeOffset ++ " references unknown CIE at " ++ inHex cieOffset.toNat
  | .malformedAugmentation offset augmentation =>
    "CIE at " ++ inHex offset ++ " has malformed augmentation " ++ Text.quote augmentation
  | .invalidPointerEncoding byte => "invalid pointer encoding 0x" ++ twoDigits byte
  | .unsupportedWidth width => "unsupported field width of " ++ toString width.toNat ++ " bytes"
  | .recordOverrun offset => "record at " ++ inHex offset ++ " overruns its bounds"

/-- What is said about an index with so many entries, from how its decode ended. -/
def warning (cieCount fdeCount : Nat) : Except Error Unit → String
  | .ok _ => ""
  | .error e =>
    "warning: " ++ wording e ++ "; showing " ++ toString cieCount ++ " CIEs and " ++
      toString fdeCount ++ " FDEs decoded before the failure\n"

/-- The outcome answers a request from an index whose decode ended in the given way. -/
def Request.Answers (request : Request) (json : Bool) (ending : Except Error Unit)
    (index : FrameIndex) (o : Outcome) : Prop :=
  o.exitCode = 0 ∧
    ∃ cies fdes, index.ListedBy cies fdes ∧ request.Shows json index cies fdes o.output ∧
      o.complaint = warning cies.length fdes.length ending

/-- The text is the message behind `first`, with every further line of it behind `rest`. -/
def Hangs (first rest message text : String) : Prop :=
  ∃ line lines, (∀ t ∈ line :: lines, '\n' ∉ t.toList) ∧
    message = "\n".intercalate (line :: lines) ∧
    text = first ++ ("\n" ++ rest).intercalate (line :: lines)

/-- The lines that give an error as a cause. The failure to open a file has a cause of its own, and
the two are numbered. -/
inductive ReportedAs : Error → String → Prop where
  | opened {path : String} {cause : IoError} {message reason : String} :
      Hangs "    0: " "       " (wording (.openFailed path cause)) message →
      Hangs "    1: " "       " cause.message reason →
      ReportedAs (.openFailed path cause) (message ++ "\n" ++ reason ++ "\n")
  | other {e : Error} {message : String} : (∀ path cause, e ≠ .openFailed path cause) →
      Hangs "    " "    " (wording e) message → ReportedAs e (message ++ "\n")

/-- The outcome is that no frames of the kind can be shown. -/
structure Refuses (kind : FrameSection) (cause : Error) (o : Outcome) : Prop where
  exitCode : o.exitCode = 1
  output : o.output = ""
  complaint : ∃ reported, ReportedAs cause reported ∧
    o.complaint = "Error: failed to decode " ++ kind.name ++ "\n\nCaused by:\n" ++ reported

section

variable {request : Request} {kind : FrameSection} {index : FrameIndex} {json : Bool}
  {σ : Type} {image : Image σ} {s t : σ} {e : Error} {ending : Except Error Unit}

theorem hexByte_eq_twoDigits (b : UInt8) : Text.hexByte b = twoDigits b := by
  have hlt : b.toNat / 16 < 16 := by
    have := b.toNat_lt
    omega
  rw [Text.hexByte, twoDigits, Nat.toDigits_of_lt_base hlt,
    Nat.toDigits_of_lt_base (Nat.mod_lt _ (by decide))]
  rfl

theorem message_eq_wording (e : Error) : e.message = wording e := by
  cases e with
  | invalidPointerEncoding byte =>
    change "invalid pointer encoding " ++ ("0x" ++ Text.hexByte byte) =
      "invalid pointer encoding 0x" ++ twoDigits byte
    rw [hexByte_eq_twoDigits, ← String.append_assoc]
    rfl
  | _ => rfl

theorem lookupText_some (address : UInt64) (kind : FrameSection) (fde : Fde) :
    lookupText address kind (some fde) =
      inHex address.toNat ++ " is in [" ++ inHex fde.start.toNat ++ " - " ++
        inHex fde.stop.toNat ++ ") (FDE at " ++ inHex fde.offset ++ ", CIE at " ++
        inHex fde.cie.offset ++ ")\n" ++
        "Pointer encoding: " ++ fde.cie.addressEncoding.text ++ "\n" ++
        "Instructions: [" ++ ", ".intercalate (fde.instructions.map twoDigits) ++ "]\n" := by
  rw [lookupText, Fde.addressEncoding, PointerEncoding.name_eq_text,
    List.map_congr_left fun b _ ↦ hexByte_eq_twoDigits b, ← String.toList_inj]
  simp [unlines, inHex, Text.hexAddress, Text.hex]

theorem shows_framesText (hrequest : request.frameSection? = some kind)
    (haugmentation : ∀ c ∈ index.cies.values, Text.IsPlain c.augmentation) :
    request.Shows json index index.cies.values index.fdes.values
      (framesText request json index) := by
  cases request with
  | cies kind =>
    have hplain := isPlain_cieListing haugmentation
    exact .cies (lists_cieListing _) hplain (hplain.shows json _)
  | fdes kind =>
    have hplain := isPlain_fdeListing index.fdes.values
    exact .fdes (lists_fdeListing _) hplain (hplain.shows json _)
  | lookup address kind =>
    cases hfound : index.findFde? address with
    | none =>
      rw [framesText, hfound]
      exact .uncovered hfound
    | some fde =>
      rw [framesText, hfound, lookupText_some]
      exact .covered hfound
  | _ => exact nomatch hrequest

/-! ## Outcomes -/

theorem intercalate_cons_cons_left (sep : List Char) (c : Char) (line : List Char)
    (lines : List (List Char)) :
    sep.intercalate ((c :: line) :: lines) = c :: sep.intercalate (line :: lines) := by
  cases lines <;> simp

/-- A text is its lines, and another text put behind each line end stands between them. -/
theorem exists_lines (chars : List Char) :
    ∃ line lines, (∀ t ∈ line :: lines, '\n' ∉ t) ∧ chars = ['\n'].intercalate (line :: lines) ∧
      ∀ rest, (chars.flatMap fun c ↦ if c = '\n' then c :: rest else [c]) =
        ('\n' :: rest).intercalate (line :: lines) := by
  induction chars with
  | nil => exact ⟨[], [], by simp, by simp, by simp⟩
  | cons c cs ih =>
    obtain ⟨line, lines, hlines, hchars, hhang⟩ := ih
    by_cases hc : c = '\n'
    · -- A line end begins a new first line.
      subst hc
      refine ⟨[], line :: lines, List.forall_mem_cons.mpr ⟨List.not_mem_nil, hlines⟩, ?_, ?_⟩
      · simp [← hchars]
      · intro rest
        simp [hhang]
    · obtain ⟨hline, hrest⟩ := List.forall_mem_cons.mp hlines
      refine ⟨c :: line, lines, List.forall_mem_cons.mpr ⟨?_, hrest⟩, ?_, ?_⟩
      · exact List.not_mem_cons_of_ne_of_not_mem (Ne.symm hc) hline
      · rw [intercalate_cons_cons_left, ← hchars]
      · intro rest
        rw [intercalate_cons_cons_left, ← hhang, List.flatMap_cons, if_neg hc]
        rfl

theorem hangs_indented (first rest message : String) :
    Hangs first rest message (indented first rest message) := by
  obtain ⟨line, lines, hlines, hchars, hhang⟩ := exists_lines message.toList
  have hofList : ∀ sep : String,
      (sep.intercalate (String.ofList line :: lines.map String.ofList)).toList =
        sep.toList.intercalate (line :: lines) := by
    intro sep
    simp [String.toList_intercalate, Function.comp_def]
  refine ⟨String.ofList line, lines.map String.ofList, ?_, ?_, ?_⟩
  · rw [← List.map_cons, List.forall_mem_map]
    intro t ht
    rw [String.toList_ofList]
    exact hlines t ht
  · rw [← String.toList_inj, hofList]
    exact hchars
  · rw [indented, hhang, ← String.toList_inj, String.toList_append, String.toList_append,
      String.toList_ofList, hofList, String.toList_append]
    rfl

/-- A message on one line hangs in one way. -/
theorem Hangs.eq_of_newline_not_mem {first rest message text : String}
    (h : Hangs first rest message text) (hline : '\n' ∉ message.toList) :
    text = first ++ message := by
  obtain ⟨line, lines, -, rfl, rfl⟩ := h
  cases lines with
  | nil => rw [String.intercalate_singleton, String.intercalate_singleton]
  | cons next lines =>
    rw [String.intercalate_cons_cons] at hline
    exact absurd (by simp) hline

theorem reportedAs_numbered (e : Error) : ReportedAs e (unlines (numbered (causes e))) := by
  by_cases hopened : ∃ path cause, e = .openFailed path cause
  · obtain ⟨path, cause, rfl⟩ := hopened
    have htext : unlines (numbered (causes (.openFailed path cause))) =
        indented "    0: " "       " (wording (.openFailed path cause)) ++ "\n" ++
          indented "    1: " "       " cause.message ++ "\n" := by
      rw [← String.toList_inj, causes, message_eq_wording, numbered]
      · have hmargins : "    " ++ Nat.repr 0 ++ ": " = "    0: " ∧
            "    " ++ Nat.repr 1 ++ ": " = "    1: " := by decide
        simp [unlines, hmargins]
      · simp
    exact htext ▸ .opened (hangs_indented _ _ _) (hangs_indented _ _ _)
  · have hother : ∀ path cause, e ≠ .openFailed path cause :=
      fun path cause he ↦ hopened ⟨path, cause, he⟩
    have hcauses : causes e = [wording e] := by
      unfold causes
      split
      · exact absurd rfl (hother _ _)
      · rw [message_eq_wording]
    have htext : unlines (numbered (causes e)) = indented "    " "    " (wording e) ++ "\n" := by
      rw [hcauses, numbered]
      simp [unlines]
    exact htext ▸ .other hother (hangs_indented _ _ _)

theorem refuses_failure (kind : FrameSection) (cause : Error) :
    Refuses kind cause (failure ("failed to decode " ++ kind.name) cause) where
  exitCode := rfl
  output := rfl
  complaint := by
    refine ⟨_, reportedAs_numbered cause, ?_⟩
    rw [failure, ← String.toList_inj]
    simp [unlines]

theorem value_runFrames (request : Request) (json : Bool) (image : Image σ) (kind : FrameSection)
    (s : σ) :
    ((runFrames request json image kind).run s).value.1 =
      answerFrames request json kind ((image.readFrames kind).ends ({}, s)).1
        ((image.readFrames kind).ends ({}, s)).2.1 := rfl

theorem frames?_start (kind : FrameSection) : FrameMemo.frames? {} kind = none := by
  cases kind <;> rfl

theorem refuses_of_cannotRead (request : Request) (json : Bool) (h : image.CannotRead kind s e) :
    Refuses kind e ((runFrames request json image kind).run s).value.1 := by
  obtain ⟨t, hends⟩ := h.ends_readFrames
  rw [value_runFrames, hends]
  simp only [answerFrames, frames?_start]
  exact refuses_failure kind e

theorem refuses_of_isFatal (request : Request) (json : Bool)
    (h : image.Decodes kind s (.error e) index) (hfatal : e.isFatal = true) :
    Refuses kind e ((runFrames request json image kind).run s).value.1 := by
  obtain ⟨t, hends⟩ := h.ends_readFrames
  rw [value_runFrames, hends]
  simp only [answerFrames, Image.frames?_keep_ofError, if_pos hfatal]
  exact refuses_failure kind e

theorem framesText_completed (request : Request) (json : Bool) (index : FrameIndex) :
    framesText request json index.completed = framesText request json index := by
  cases request <;> rfl

theorem partialWarning_eq (e : Error) (index : FrameIndex) :
    partialWarning e index =
      warning index.cies.values.length index.fdes.values.length (.error e) := by
  simp only [warning, SortedMap.length_values, partialWarning, message_eq_wording]

theorem answers_of_decodes (hrequest : request.frameSection? = some kind) (json : Bool)
    (h : image.Decodes kind s ending index) (hfatal : ∀ e, ending = .error e → e.isFatal = false) :
    request.Answers json ending index ((runFrames request json image kind).run s).value.1 := by
  obtain ⟨context, bytes, ps, hlinked⟩ := h.exists_linked
  have hshows : request.Shows json index index.cies.values index.fdes.values
      (framesText request json index) :=
    shows_framesText hrequest hlinked.isPlain_augmentation
  obtain ⟨t, hends⟩ := h.ends_readFrames
  rw [value_runFrames, hends]
  cases ending with
  | ok _ =>
    refine ⟨rfl, _, _, hlinked.listedBy, ?_, rfl⟩
    rw [answerFrames, framesText_completed]
    exact hshows
  | error e =>
    have hrecoverable : ¬e.isFatal = true := by
      rw [hfatal e rfl]
      decide
    simp only [answerFrames, Image.frames?_keep_ofError, if_neg hrecoverable]
    exact ⟨rfl, _, _, hlinked.listedBy, hshows, partialWarning_eq e index⟩

theorem Request.run_of_frameSection? (hrequest : request.frameSection? = some kind) (json : Bool)
    (image : Image σ) : request.run json image = runFrames request json image kind := by
  cases request with
  | cies _ => obtain rfl := Option.some.inj hrequest; rfl
  | fdes _ => obtain rfl := Option.some.inj hrequest; rfl
  | lookup _ _ => obtain rfl := Option.some.inj hrequest; rfl
  | _ => exact nomatch hrequest

/-- A run goes on with the image that was opened. -/
theorem Invocation.value_run {i : Invocation} {source : Task σ (Medium σ)}
    (hopen : Task.ends (do Image.read i.path (← source)) s = (.ok image, t)) :
    ((i.run source).run s).value = ((i.request.run i.json image).run t).value := by
  rw [Task.ends, Task.runFrom] at hopen
  rw [Invocation.run, StateT.run_bind, Told.value_bind, hopen]

/-- **What a run shows of frames.** An image is opened, and the request is about its frames of one
kind. Where the section is read and its decode ends without a fatal error, the outcome answers the
request from what was decoded. After a fatal error, or where the section cannot be read, the outcome
is a refusal, and shows nothing. -/
theorem Invocation.run_answers_or_refuses {i : Invocation} {source : Task σ (Medium σ)}
    (hrequest : i.request.frameSection? = some kind)
    (hopen : Task.ends (do Image.read i.path (← source)) s = (.ok image, t)) :
    let o := ((i.run source).run s).value.1
    (∀ ending index, image.Decodes kind t ending index →
      (∀ e, ending = .error e → e.isFatal = false) → i.request.Answers i.json ending index o) ∧
    (∀ e index, image.Decodes kind t (.error e) index → e.isFatal = true → Refuses kind e o) ∧
    (∀ e, image.CannotRead kind t e → Refuses kind e o) ∧
    ((∃ ending index, image.Decodes kind t ending index) ∨ ∃ e, image.CannotRead kind t e) := by
  intro o
  have ho : o = ((runFrames i.request i.json image kind).run t).value.1 := by
    rw [← Request.run_of_frameSection? hrequest, ← Invocation.value_run hopen]
  rw [ho]
  exact ⟨fun ending index h hfatal ↦ answers_of_decodes hrequest i.json h hfatal,
    fun e index h hfatal ↦ refuses_of_isFatal i.request i.json h hfatal,
    fun e h ↦ refuses_of_cannotRead i.request i.json h, image.decodes_or_cannotRead kind t⟩

/-- An image with one CIE and one FDE, behind which its frames are cut off. -/
def cutFrames : ImageSource where
  elfClass := .elf64
  objectType := 2
  machine := 62
  entry := 0
  flags := 0
  sections :=
    [⟨".eh_frame", 1, 2, 0, FrameIndex.plainCie .ehFrame ++
      FrameIndex.rangeRecord 20 0x1000 0x20 ++ [8, 0, 0, 0, 0]⟩]
  segments := []

theorem opens_cutFrames : ((Image.read "a.out" (Medium.ofBytes cutFrames.bytes)).ends ()).1 =
    .ok (OnDisk.image "a.out" cutFrames.bytes) := by
  refine (OnDisk.makes_read_image "a.out" cutFrames.bytes).eq_ok_iff.mpr ⟨?_, rfl⟩
  decide +kernel

theorem decodes_cutFrames :
    ∃ index, (OnDisk.image "a.out" cutFrames.bytes : Image Unit).Decodes .ehFrame ()
        (.error (.recordOverrun 0x28)) index ∧
      index.cies.keys = [0] ∧ index.fdes.keys = [0x1000] := by
  have hfound : (OnDisk.image "a.out" cutFrames.bytes : Image Unit).section? ".eh_frame" =
      some ⟨".eh_frame", 1, 2, 0, 64, 45⟩ := by decide +kernel
  have hcontents : ((Medium.ofBytes cutFrames.bytes).read 45 64).runFrom () = pure (.ok _, ()) :=
    Medium.runFrom_read_ofBytes_of_le (by decide +kernel) ()
  refine ⟨_, ⟨_, _, (), hfound, by decide +kernel, congrArg Told.value hcontents,
    Prod.ext ?ending rfl⟩, ?cies, ?fdes⟩
  case ending => decide +kernel
  case cies => decide +kernel
  case fdes => decide +kernel

/-- The entries before the cut are shown under a warning, and the other section is not there. -/
theorem Invocation.run_answers_or_refuses_cutFrames :
    let source : Task Unit (Medium Unit) := return Medium.ofBytes cutFrames.bytes
    let fdes : Invocation := ⟨"a.out", false, 0, .fdes .ehFrame⟩
    let cies : Invocation := ⟨"a.out", true, 0, .cies .debugFrame⟩
    let answered := ((fdes.run source).run ()).value.1
    let refused := ((cies.run source).run ()).value.1
    (∃ index, fdes.request.Answers false (.error (.recordOverrun 0x28)) index answered ∧
      index.cies.keys = [0] ∧ index.fdes.keys = [0x1000]) ∧
    answered.output =
      " Offset | CIE | Start  | End    | Size | Insts \n" ++
      "--------+-----+--------+--------+------+-------\n" ++
      " 0x10   | 0x0 | 0x1000 | 0x1020 | 32   | 0     \n" ∧
    answered.complaint =
      "warning: record at 0x28 overruns its bounds; showing 1 CIEs and 1 FDEs " ++
      "decoded before the failure\n" ∧
    refused.exitCode = 1 ∧ refused.output = "" ∧
      refused.complaint =
        "Error: failed to decode .debug_frame\n\nCaused by:\n    no .debug_frame section\n" := by
  intro source fdes cies answered refused
  have hopen : Task.ends (do Image.read "a.out" (← source)) () =
      (.ok (OnDisk.image "a.out" cutFrames.bytes), ()) :=
    (Task.ends_bind_of_ok (Task.ends_pure _ ())).trans
      (Prod.ext opens_cutFrames (Subsingleton.elim _ _))
  obtain ⟨index, hindex, hkeys⟩ := decodes_cutFrames
  have hanswers := (Invocation.run_answers_or_refuses (i := fdes) rfl hopen).1 _ index hindex
    fun e he ↦ by cases he; rfl
  have hrefuses := (Invocation.run_answers_or_refuses (i := cies) rfl hopen).2.2.1 _
    (.missing (by decide +kernel))
  refine ⟨⟨index, hanswers, hkeys⟩, ?output, ?warning, hrefuses.exitCode, hrefuses.output, ?cause⟩
  case output => decide +kernel
  case warning => decide +kernel
  case cause =>
    obtain ⟨reported, hreported, hcomplaint⟩ := hrefuses.complaint
    cases hreported with
    | other _ hhangs =>
      rw [hcomplaint, hhangs.eq_of_newline_not_mem (by decide)]
      decide

end

end CommandLine

end ElfUnwind
