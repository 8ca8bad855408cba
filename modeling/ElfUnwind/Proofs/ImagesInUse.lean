import ElfUnwind.Image.Writer
import ElfUnwind.Proofs.OpenFiles
import ElfUnwind.Proofs.Opening

/-!
# Images in use

While an image in a file is open, requests to it come in between changes of files. Its structure and
the frames that were decoded to the end are never looked up again, so no change reaches them
(`FileTree.openFile_afterChanges`). As long as its own file is left alone, the image answers like
one on the same bytes in memory (`Image.openFile_inMemory`).
-/

namespace ElfUnwind

/-- What happens while an image is open. -/
inductive UseStep where
  /-- The files change. -/
  | change (c : FileChange)
  /-- Something is requested of the image. -/
  | request (r : FrameRequest)

/-- The change of a step. -/
def UseStep.change? : UseStep → Option FileChange
  | change c => some c
  | request _ => none

/-- The request of a step. -/
def UseStep.request? : UseStep → Option FrameRequest
  | change _ => none
  | request r => some r

/-- An open image in use. -/
structure ImageUse where
  /-- The image. -/
  opened : OpenImage
  /-- The files. -/
  files : FileTree

namespace ImageUse

/-- Nothing requested yet. -/
def start (image : Image FileTree) (files : FileTree) : ImageUse := ⟨⟨image, {}⟩, files⟩

/-- The answer to a request, and what it leaves. -/
def answer (u : ImageUse) (r : FrameRequest) : FrameAnswer × ImageUse :=
  let (a, (memo, files)) := u.opened.image.answer (u.opened.memo, u.files) r
  (a, ⟨⟨u.opened.image, memo⟩, files⟩)

/-- What a step leaves. -/
def step (u : ImageUse) : UseStep → ImageUse
  | .change c => { u with files := c.apply u.files }
  | .request r => (u.answer r).2

/-- What steps leave. -/
def after (u : ImageUse) (steps : List UseStep) : ImageUse := steps.foldl step u

/-- The answers to the requests among steps. -/
def answers (u : ImageUse) : List UseStep → List FrameAnswer
  | [] => []
  | .change c :: steps => (u.step (.change c)).answers steps
  | .request r :: steps => (u.answer r).1 :: (u.step (.request r)).answers steps

variable {u : ImageUse} {kind : FrameSection} {frames : DecodedFrames}

/-! ## What stays -/

theorem image_after (u : ImageUse) (steps : List UseStep) :
    (u.after steps).opened.image = u.opened.image := by
  induction steps generalizing u with
  | nil => rfl
  | cons s steps ih =>
    have hstep : (u.step s).opened.image = u.opened.image := by
      cases s with
      | change c => rfl
      | request r => rfl
    exact (ih _).trans hstep

/-- Requests are answered as those of an image whose reads are on record. -/
theorem answer_recorded (u : ImageUse) (r : FrameRequest) :
    (u.answer r).1 = (u.opened.image.recorded.answer (u.opened.memo, [], u.files) r).1 ∧
      (u.answer r).2.opened.memo =
        (u.opened.image.recorded.answer (u.opened.memo, [], u.files) r).2.1 := by
  have hstart : Task.Beside FrameMemo (fun s (t : List ReadRecord × FileTree) ↦ s = t.2)
      (u.opened.memo, u.files) (u.opened.memo, [], u.files) := ⟨rfl, rfl⟩
  obtain ⟨hanswer, hmemo, -⟩ := u.opened.image.alike_recorded.answer hstart r
  exact ⟨hanswer, hmemo⟩

theorem state?_step_of_settled (h : Image.IsSettled (u.opened.memo.state? kind)) (s : UseStep) :
    (u.step s).opened.memo.state? kind = u.opened.memo.state? kind := by
  cases s with
  | change c => rfl
  | request r =>
    rw [step, (answer_recorded u r).2]
    exact Image.state?_answer_of_settled u.opened.image h r

/-- **Neither a request nor a change of files unsettles what is settled.** -/
theorem state?_after_of_settled (h : Image.IsSettled (u.opened.memo.state? kind))
    (steps : List UseStep) :
    (u.after steps).opened.memo.state? kind = u.opened.memo.state? kind := by
  induction steps generalizing u with
  | nil => rfl
  | cons s steps ih =>
    have hstep := state?_step_of_settled h s
    rw [after, List.foldl_cons, ← after, ih (by rwa [hstep]), hstep]

theorem state?_of_answer_ok (h : (u.answer (.frames kind)).1 = .frames kind (.ok frames)) :
    (u.answer (.frames kind)).2.opened.memo.state? kind = some (.complete frames) := by
  obtain ⟨hanswer, hmemo⟩ := answer_recorded u (.frames kind)
  rw [hmemo]
  exact Image.state?_of_answer_ok (hanswer.symm.trans h)

/-- Frames that were decoded to the end answer every request for them, and nothing changes. -/
theorem answer_of_complete (h : u.opened.memo.state? kind = some (.complete frames)) :
    u.answer (.frames kind) = (.frames kind (.ok frames), u) ∧
      u.answer (.look kind) = (.look kind (some frames), u) := by
  constructor
  · rw [answer, Image.answer, Image.ends_readFrames_of_complete h]
  · rw [answer, Image.answer, FrameMemo.frames?, h]
    rfl

/-! ## One image in a file and in memory -/

/-- An image whose file keeps its bytes is answered for by one on another medium. -/
theorem answers_eq {σ : Type} {image : Image FileTree} {other : Image σ} {id : Nat}
    {bytes : List UInt8} {s : FrameMemo × σ} {steps : List UseStep}
    (halike : ∀ t : FileTree, t.content id = bytes → image.Alike (fun files _ ↦ files = t) other)
    (himage : u.opened.image = image) (hmemo : u.opened.memo = s.1)
    (hkept : ∀ front, front <+: steps →
      ((front.filterMap UseStep.change?).foldl FileChange.apply u.files).content id = bytes) :
    u.answers steps = (other.answers s (steps.filterMap UseStep.request?)).1 := by
  induction steps generalizing u s with
  | nil => rfl
  | cons step steps ih =>
    have hrest (front : List UseStep) (hfront : front <+: steps) :=
      hkept (step :: front) ((List.prefix_cons_inj step).mpr hfront)
    cases step with
    | change c => exact ih himage hmemo hrest
    | request r =>
      subst himage
      -- Nothing that is read changes a file.
      obtain ⟨hanswer, hnext, hfiles⟩ := (halike u.files (hkept [] List.nil_prefix)).answer
        (s := (u.opened.memo, u.files)) ⟨hmemo, rfl⟩ r
      refine congrArg₂ List.cons hanswer (ih rfl hnext fun front hfront ↦ ?_)
      rw [← hrest front hfront]
      exact congrArg (fun files ↦ (List.foldl FileChange.apply files _).content id) hfiles

end ImageUse

namespace FileTree

variable {t : FileTree} {path : String} {id : Nat}

theorem ends_openFile (h : t.resolve path = .ok (.file id)) :
    (openFile path).ends t = (.ok (medium (.file id) (t.content id).length), t) := by
  rw [openFile, Task.ends_bind_of_ok (Task.ends_get t), h]
  rfl

/-- A file serves like its bytes in memory, and reads leave all files as they are. -/
theorem alike_medium {σ : Type} (hlimit : (t.content id).length < positionLimit) :
    (medium (.file id) (t.content id).length).Alike (fun files (_ : σ) ↦ files = t)
      (Medium.ofBytes (t.content id)) where
  size_eq := rfl
  read length offset hread := by
    rintro files state (hfiles : files = t)
    -- The two differ on nothing beyond the end alone, which is not asked for.
    have hiff : length = 0 ∨ offset.toNat + length ≤ (t.content id).length ↔
        offset.toNat + length ≤ (t.content id).length := by
      refine or_iff_right_of_imp fun hempty ↦ hread.resolve_left ?_
      exact Nat.not_lt.mpr (Nat.le_of_eq hempty)
    rw [hfiles, ends_read_file hlimit]
    simp only [hiff]
    by_cases hle : offset.toNat + length ≤ (t.content id).length
    · rw [if_pos hle, Task.ends, Medium.runFrom_read_ofBytes_of_le hle]
      exact ⟨Agree.refl _, trivial⟩
    · rw [if_neg hle, Task.ends, Medium.runFrom_read_ofBytes_of_lt (Nat.lt_of_not_le hle)]
      exact ⟨Agree.refl _, trivial⟩

/-- **A file that was opened shows its own bytes as they are now.** It keeps the size it had when it
was opened. A read that is not empty gets the bytes of the file, which what is made under its name
later does not count among, exactly if they are all there now; a range also has to lie in the size
kept; every other read is refused as a whole. An image that is open in the file keeps its structure,
and the frames it has decoded to the end, whatever becomes of the files. -/
theorem openFile_afterChanges (ht : t.Sound) (hpath : t.resolve path = .ok (.file id))
    (changes : List FileChange)
    (hlimit : (changes.foldl (NamedFile.after t.place) (t.namedFile id)).contents.length <
      positionLimit) :
    let now := changes.foldl FileChange.apply t
    let held := (changes.foldl (NamedFile.after t.place) (t.namedFile id)).contents
    ∃ m, (openFile path).ends t = (.ok m, t) ∧ m.size = (t.content id).length ∧
      (∀ (length : Nat) (offset : UInt64), 0 < length →
        (m.read length offset).ends now =
          (if offset.toNat + length ≤ held.length then
            .ok ((held.drop offset.toNat).take length)
          else .error (.truncatedRead offset.toNat length), now)) ∧
      (∀ length offset : UInt64,
        (m.readRange length offset).ends now =
          (if offset.toNat + length.toNat ≤ (t.content id).length ∧
              (length = 0 ∨ offset.toNat + length.toNat ≤ held.length) then
            .ok ((held.drop offset.toNat).take length.toNat)
          else .error (.truncatedRead offset.toNat length.toNat), now)) ∧
      ∀ label image, ((Image.read label m).ends now).1 = .ok image → ∀ steps,
        let u := (ImageUse.start image now).after steps
        u.opened.image = image ∧
          ∀ kind frames, (u.answer (.frames kind)).1 = .frames kind (.ok frames) → ∀ more,
            let v := (u.answer (.frames kind)).2.after more
            v.answer (.frames kind) = (.frames kind (.ok frames), v) ∧
              v.answer (.look kind) = (.look kind (some frames), v) := by
  intro now held
  obtain ⟨p, hnode⟩ := exists_node?_of_resolve hpath
  have hshows : now.Shows id (changes.foldl (NamedFile.after t.place) (t.namedFile id)) :=
    (shows_namedFile (ht p id hnode)).applyAll changes
  have hheld : now.content id = held := hshows.contents
  have hnow : (now.content id).length < positionLimit := by
    rw [hheld]
    exact hlimit
  refine ⟨_, ends_openFile hpath, rfl, ?read, ?range, ?image⟩
  case read =>
    intro length offset hlength
    rw [ends_read_file hnow, hheld]
    simp only [Nat.ne_of_gt hlength, false_or]
  case range =>
    intro length offset
    rw [ends_readRange_file hnow, hheld]
  case image =>
    intro label image _ steps u
    refine ⟨ImageUse.image_after _ steps, ?_⟩
    intro kind frames hanswer more v
    have hstate := ImageUse.state?_of_answer_ok hanswer
    have hkept := ImageUse.state?_after_of_settled (by rw [hstate]; trivial) more
    exact ImageUse.answer_of_complete (hkept.trans hstate)

/-- A file that has grown is read beyond the size it was opened with, but not as a range, and what
is made in its place is not seen. -/
theorem openFile_afterChanges_replaced :
    let t := (FileTree.empty ["work"]).write "a" bareImage
    let now := [FileChange.write "a" (bareImage ++ [9]), .remove "a", .write "a" []].foldl
      FileChange.apply t
    ∃ m, (openFile "a").ends t = (.ok m, t) ∧ m.size = 52 ∧
      (m.read 1 52).ends now = (.ok [9], now) ∧
      (m.read 2 52).ends now = (.error (.truncatedRead 52 2), now) ∧
      (m.readRange 1 52).ends now = (.error (.truncatedRead 52 1), now) ∧
      ∃ image, ((Image.read "a" m).ends now).1 = .ok image ∧
        ((ImageUse.start image now).after [.request (.frames .ehFrame)]).opened.image = image := by
  intro t now
  have ht : t.Sound := (sound_empty ["work"]).applyAll [.write "a" bareImage]
  have hpath : t.resolve "a" = .ok (.file 0) := by decide +kernel
  obtain ⟨m, hopen, hsize, hread, hrange, himage⟩ := openFile_afterChanges ht hpath
    [.write "a" (bareImage ++ [9]), .remove "a", .write "a" []] (by decide +kernel)
  have hm : m = medium (.file 0) (t.content 0).length :=
    Except.ok.inj (congrArg Prod.fst (hopen.symm.trans (ends_openFile hpath)))
  obtain ⟨image, hresult⟩ : ∃ image, ((Image.read "a" m).ends now).1 = .ok image := by
    rw [hm]
    exact exists_eq_ok_of_toBool (by decide +kernel)
  refine ⟨m, hopen, hsize.trans (by decide +kernel), (hread 1 52 (by decide)).trans ?found,
    (hread 2 52 (by decide)).trans ?short, (hrange 1 52).trans ?outside, image, hresult,
    (himage "a" image hresult [.request (.frames .ehFrame)]).1⟩
  case found =>
    rw [if_pos (by decide +kernel)]
    exact congrArg (Except.ok ·, now) (by decide +kernel)
  case short => rw [if_neg (by decide +kernel)]; rfl
  case outside => rw [if_neg (by decide +kernel)]; rfl

end FileTree

/-- **An image in a file is the image on the same bytes in memory.** It opens if that does and fails
with the same error if not. It has the same header, sections and segments, and as long as the file
keeps its bytes the same answers to requests in any order, whatever happens to other files. -/
theorem Image.openFile_inMemory {σ : Type} {files : FileTree} {path : String} {id : Nat}
    (hpath : files.resolve path = .ok (.file id))
    (hlimit : (files.content id).length < FileTree.positionLimit) (label : String) (state : σ) :
    let inFile := ((Image.openFile path).ends files).1
    let inMemory := ((Image.read label (Medium.ofBytes (files.content id))).ends state).1
    (∀ e, inFile = .error e ↔ inMemory = .error e) ∧
      ∀ image, inFile = .ok image → ∃ other, inMemory = .ok other ∧
        image.header = other.header ∧ image.sections = other.sections ∧
        image.segments = other.segments ∧
        image.lowestExecutable? = other.lowestExecutable? ∧
        ∀ steps, (∀ front, front <+: steps → ((front.filterMap UseStep.change?).foldl
            FileChange.apply files).content id = files.content id) →
          (ImageUse.start image files).answers steps =
            (other.answers ({}, state) (steps.filterMap UseStep.request?)).1 := by
  intro inFile inMemory
  have halike := (Image.alike_read (FileTree.alike_medium (σ := σ) hlimit) path label
    files state rfl).1
  have hopen : (Image.openFile path).ends files =
      (Image.read path (FileTree.medium (.file id) (files.content id).length)).ends files :=
    Task.ends_bind_of_ok (FileTree.ends_openFile hpath)
  rw [← hopen] at halike
  change Agree _ inFile inMemory at halike
  refine ⟨fun e ↦ halike.eq_error_iff, ?_⟩
  intro image himage
  rw [himage] at halike
  obtain ⟨other, hopened, h, hmedium, hother⟩ := halike.exists_of_ok_left
  refine ⟨other, hopened, h.header_eq, h.sections_eq, h.segments_eq, h.lowestExecutable?_eq, ?_⟩
  intro steps hkept
  refine ImageUse.answers_eq (fun t ht ↦ h.of_medium ?_) rfl rfl hkept
  rw [hmedium, hother, ← ht]
  exact FileTree.alike_medium (by rwa [ht])

/-- An image with code, and with one CIE for it. -/
def codeAndFrames : ImageSource where
  elfClass := .elf32
  objectType := 2
  machine := 3
  entry := 0x8049000
  flags := 0
  sections :=
    [⟨".text", 1, 6, 0x8049000, [0xc3]⟩,
      ⟨".eh_frame", 1, 2, 0x804a000, [9, 0, 0, 0, 0, 0, 0, 0, 1, 0, 1, 0x78, 16]⟩]
  segments := []

/-- An image in a file answers like the one in memory while another file is written. -/
theorem Image.openFile_inMemory_codeAndFrames :
    let files := (FileTree.empty ["work"]).write "a" codeAndFrames.bytes
    let steps : List UseStep :=
      [.request (.contents ".text"), .change (.write "b" [1]), .request (.frames .ehFrame),
        .request (.frames .debugFrame)]
    ∃ image other frames, ((Image.openFile "a").ends files).1 = .ok image ∧
      ((Image.read "memory" (Medium.ofBytes (files.content 0))).ends ()).1 = .ok other ∧
      image.header = other.header ∧ image.sections = other.sections ∧
      (ImageUse.start image files).answers steps =
        (other.answers ({}, ()) (steps.filterMap UseStep.request?)).1 ∧
      (ImageUse.start image files).answers steps =
        [.contents ".text" (.ok [0xc3]), .frames .ehFrame (.ok frames),
          .frames .debugFrame (.error (.missingSection ".debug_frame"))] ∧
      frames.index.cies.keys = [0] := by
  intro files steps
  have hpath : files.resolve "a" = .ok (.file 0) := by decide +kernel
  obtain ⟨-, hopens⟩ := Image.openFile_inMemory hpath (by decide +kernel) "memory" ()
  obtain ⟨image, hresult⟩ : ∃ image, ((Image.openFile "a").ends files).1 = .ok image :=
    exists_eq_ok_of_toBool (by decide +kernel)
  obtain ⟨other, hother, hheader, hsections, -, -, hanswers⟩ := hopens image hresult
  have halike := hanswers steps (by simp only [← List.mem_inits]; decide +kernel)
  obtain ⟨-, rfl⟩ := (OnDisk.makes_read_image "memory" (files.content 0)).eq_ok_iff.mp hother
  let memory : Image Unit := OnDisk.image "memory" (files.content 0)
  let s := (memory.answer ({}, ()) (.contents ".text")).2
  let t := (memory.answer s (.frames .ehFrame)).2
  have hcontents : ((memory.sectionData ".text").onSecond.ends (({}, ()) : FrameMemo × Unit)).1 =
      .ok [0xc3] := by decide +kernel
  obtain ⟨frames, hframes⟩ : ∃ frames, ((memory.readFrames .ehFrame).ends s).1 = .ok frames :=
    exists_eq_ok_of_toBool (by decide +kernel)
  have hmissing : ((memory.readFrames .debugFrame).ends t).1.map (fun _ ↦ ()) =
      .error (.missingSection ".debug_frame") := by decide +kernel
  have hkeys : ((memory.readFrames .ehFrame).ends s).1.map (·.index.cies.keys) = .ok [0] := by
    decide +kernel
  rw [hframes] at hkeys
  refine ⟨image, memory, frames, hresult, hother, hheader, hsections, halike, halike.trans ?_,
    Except.ok.inj hkeys⟩
  change [FrameAnswer.contents ".text" _, .frames .ehFrame _, .frames .debugFrame _] = _
  rw [hcontents, hframes, Image.eq_error_of_map hmissing]

end ElfUnwind
