import ElfUnwind.Proofs.CheckedRanges
import ElfUnwind.Proofs.ImagesInUse

/-!
# Reads of files in pieces

The system need not serve a read of a file at once: a call for bytes at a position may be
interrupted or move fewer bytes than were asked for, and then the rest is asked for behind them.
However it cuts a read into pieces, what comes of it is the same (`FileTree.fill_eq`), so a file
serves whole reads like a medium of its bytes.

It does so for every read that is not empty, to the last position there is, and for every empty read
within the bytes. An empty read behind them is refused in memory, while a file has nothing to do for
it and succeeds (`FileTree.openFile_read_eq_iff`).
-/

namespace ElfUnwind

/-- What the system makes of one call for bytes. -/
inductive SystemCall where
  /-- It is interrupted before it moves anything. -/
  | interrupted
  /-- It moves what there is, but at most one byte more than `most`. -/
  | upTo (most : ℕ)
  deriving DecidableEq, Repr

namespace FileTree

variable {available : Option (List UInt8)} {bytes piece : List UInt8} {calls : List SystemCall}
  {length most size p : ℕ} {offset : UInt64} {outcome : Except IoError (List UInt8)}

/-! ## Calls to the system -/

/-- What one call moves of the bytes of a file; a directory has none. -/
def transfer (available : Option (List UInt8)) (most length : ℕ) (offset : UInt64) :
    Except IoError (List UInt8) :=
  if positionLimit ≤ offset.toNat + length then .error .invalidArgument
  else
    match available with
    | none => .error .isADirectory
    | some bytes => .ok (((bytes.drop offset.toNat).take length).take (most + 1))

/-- Calls for bytes until there are as many as were wanted, each behind what the ones before it have
moved. Without enough calls it has not come to an end. -/
def fill (available : Option (List UInt8)) :
    List SystemCall → (length : ℕ) → (offset : UInt64) → Option (Except IoError (List UInt8))
  | [], length, _ => if length = 0 then some (.ok []) else none
  | call :: calls, length, offset =>
    if length = 0 then some (.ok [])
    else
      match call with
      | .interrupted => fill available calls length offset
      | .upTo most =>
        match transfer available most length offset with
        | .error cause => some (.error cause)
        -- Nothing was moved, so the file has ended.
        | .ok [] => some (.error .endOfFile)
        | .ok (b :: bs) =>
          let piece := b :: bs
          (fill available calls (length - piece.length)
            (offset + UInt64.ofNat piece.length)).map (Except.map (piece ++ ·))

theorem fill_zero (available : Option (List UInt8)) (calls : List SystemCall) (offset : UInt64) :
    fill available calls 0 offset = some (.ok []) := by
  cases calls <;> rfl

theorem fill_interrupted (hlength : length ≠ 0) :
    fill available (.interrupted :: calls) length offset = fill available calls length offset := by
  rw [fill, if_neg hlength]

theorem fill_of_error (hlength : length ≠ 0) {cause : IoError}
    (h : transfer available most length offset = .error cause) :
    fill available (.upTo most :: calls) length offset = some (.error cause) := by
  rw [fill.eq_def]
  dsimp only
  rw [if_neg hlength, h]

theorem fill_of_nil (hlength : length ≠ 0)
    (h : transfer available most length offset = .ok []) :
    fill available (.upTo most :: calls) length offset = some (.error .endOfFile) := by
  rw [fill.eq_def]
  dsimp only
  rw [if_neg hlength, h]

theorem fill_of_ne_nil (hlength : length ≠ 0)
    (h : transfer available most length offset = .ok piece) (hne : piece ≠ []) :
    fill available (.upTo most :: calls) length offset =
      (fill available calls (length - piece.length)
        (offset + UInt64.ofNat piece.length)).map (Except.map (piece ++ ·)) := by
  obtain ⟨b, bs, rfl⟩ := List.exists_cons_of_ne_nil hne
  rw [fill.eq_def]
  dsimp only
  rw [if_neg hlength, h]

/-- What a read comes to that is not cut into pieces. -/
def wholeRead (available : Option (List UInt8)) (length : ℕ) (offset : UInt64) :
    Except IoError (List UInt8) :=
  match refusal? (available.map List.length) length offset with
  | some cause => .error cause
  | none => .ok (((available.getD []).drop offset.toNat).take length)

theorem wholeRead_zero (available : Option (List UInt8)) (offset : UInt64) :
    wholeRead available 0 offset = .ok [] := by
  have hnone : refusal? (available.map List.length) 0 offset = none := by
    cases available <;> rfl
  rw [wholeRead, hnone, List.take_zero]

/-- A call is refused like the whole read, or else it moves a front of what was asked for. -/
theorem transfer_cases (hlength : length ≠ 0) (available : Option (List UInt8)) (most : ℕ)
    (offset : UInt64) :
    (∃ cause, transfer available most length offset = .error cause ∧
        wholeRead available length offset = .error cause) ∨
      ∃ bytes, available = some bytes ∧ offset.toNat + length < positionLimit ∧
        transfer available most length offset =
          .ok ((bytes.drop offset.toNat).take (min (most + 1) length)) := by
  by_cases hlimit : positionLimit ≤ offset.toNat + length
  · have hrefusal : ∀ size, refusal? size length offset = some .invalidArgument := by
      intro size
      cases size <;> rw [refusal?, if_neg hlength, if_pos hlimit]
    refine Or.inl ⟨.invalidArgument, ?_, by rw [wholeRead, hrefusal]⟩
    cases available <;> rw [transfer, if_pos hlimit]
  · cases available with
    | none =>
      refine Or.inl ⟨.isADirectory, by rw [transfer, if_neg hlimit], ?_⟩
      rw [wholeRead, Option.map_none, refusal?, if_neg hlength, if_neg hlimit]
    | some bytes =>
      refine Or.inr ⟨bytes, rfl, Nat.lt_of_not_le hlimit, ?_⟩
      rw [transfer, if_neg hlimit, List.take_take]

/-- Where a file has ended nothing is moved, and the whole read is refused. -/
theorem wholeRead_of_length_le (hlength : length ≠ 0)
    (hlimit : offset.toNat + length < positionLimit) (hend : bytes.length ≤ offset.toNat) :
    wholeRead (some bytes) length offset = .error .endOfFile := by
  rw [wholeRead, Option.map_some, refusal?, if_neg hlength, if_neg (Nat.not_le.mpr hlimit),
    if_pos (by omega)]

/-- Positions behind a piece are counted on without leaving the word. -/
theorem toNat_add_ofNat_piece (hlimit : offset.toNat + length < positionLimit) (hp : p ≤ length) :
    (offset + UInt64.ofNat p).toNat = offset.toNat + p := by
  have hword : positionLimit < UInt64.size := by decide
  have hsum : offset.toNat + p < UInt64.size := by omega
  rw [UInt64.toNat_add, UInt64.toNat_ofNat_of_lt' (by omega), Nat.mod_eq_of_lt hsum]

/-- What is behind a piece is refused exactly if the whole is, for the same cause. -/
theorem refusal?_behind (hlimit : offset.toNat + length < positionLimit) (hp : p ≤ length)
    (hsize : offset.toNat + p ≤ size) :
    refusal? (some size) (length - p) (offset + UInt64.ofNat p) =
      refusal? (some size) length offset := by
  have hoffset := toNat_add_ofNat_piece hlimit hp
  by_cases hlength : length = 0
  · rw [refusal?, refusal?, if_pos hlength, if_pos (by omega)]
  · rw [refusal?, refusal?, hoffset, if_neg hlength, if_neg (Nat.not_le.mpr hlimit)]
    by_cases hrest : length - p = 0
    · rw [if_pos hrest, if_neg (by omega)]
    · have hsum : offset.toNat + p + (length - p) = offset.toNat + length := by omega
      rw [if_neg hrest, hsum, if_neg (by omega)]

/-- **A piece and what is read behind it** are what is read whole. -/
theorem map_wholeRead_behind (hlimit : offset.toNat + length < positionLimit)
    (hmost : most ≤ length) (hpiece : (bytes.drop offset.toNat).take most = piece)
    (hne : piece ≠ []) :
    (wholeRead (some bytes) (length - piece.length) (offset + UInt64.ofNat piece.length)).map
        (piece ++ ·) = wholeRead (some bytes) length offset := by
  have hlength : piece.length = min most (bytes.length - offset.toNat) := by
    rw [← hpiece, List.length_take, List.length_drop]
  have hpos : 0 < piece.length := List.length_pos_iff.mpr hne
  have hp : piece.length ≤ length := by omega
  have hfront : piece = (bytes.drop offset.toNat).take piece.length := by
    rw [hlength, ← List.length_drop, ← List.take_eq_take_min, hpiece]
  rw [wholeRead, wholeRead, Option.map_some, refusal?_behind hlimit hp (by omega),
    toNat_add_ofNat_piece hlimit hp]
  cases refusal? (some bytes.length) length offset with
  | some cause => rfl
  | none =>
    have hsplit := List.take_add (l := bytes.drop offset.toNat) (i := piece.length)
      (j := length - piece.length)
    rw [Nat.add_sub_cancel' hp, ← hfront, List.drop_drop] at hsplit
    exact congrArg Except.ok hsplit.symm

/-! ## Whole reads -/

/-- **However the system cuts a read into pieces,** it comes to the same as a whole read. -/
theorem fill_eq (h : fill available calls length offset = some outcome) :
    outcome = wholeRead available length offset := by
  induction calls generalizing length offset outcome with
  | nil =>
    rw [fill] at h
    split at h
    case isTrue hzero =>
      cases h
      rw [hzero, wholeRead_zero]
    case isFalse => cases h
  | cons call calls ih =>
    by_cases hzero : length = 0
    · rw [hzero, fill_zero] at h
      cases h
      rw [hzero, wholeRead_zero]
    cases call with
    | interrupted => exact ih (fill_interrupted hzero ▸ h)
    | upTo most =>
      obtain ⟨cause, htransfer, hwhole⟩ | ⟨bytes, rfl, hlimit, htransfer⟩ :=
        transfer_cases hzero available most offset
      · rw [fill_of_error hzero htransfer] at h
        cases h
        exact hwhole.symm
      · generalize hpiece : (bytes.drop offset.toNat).take (min (most + 1) length) = piece
          at htransfer
        by_cases hne : piece = []
        · rw [fill_of_nil hzero (hne ▸ htransfer)] at h
          cases h
          refine (wholeRead_of_length_le hzero hlimit ?_).symm
          rw [hne, List.take_eq_nil_iff] at hpiece
          exact List.drop_eq_nil_iff.mp (hpiece.resolve_left (by omega))
        · rw [fill_of_ne_nil hzero htransfer hne] at h
          obtain ⟨rest, hrest, rfl⟩ := Option.map_eq_some_iff.mp h
          rw [ih hrest]
          exact map_wholeRead_behind hlimit (Nat.min_le_right _ _) hpiece hne

/-- A call that is not interrupted moves on or ends the read, so as many of them as there are bytes
to read are enough. -/
theorem isSome_fill (available : Option (List UInt8)) (offset : UInt64)
    (h : length ≤ calls.countP (· ≠ .interrupted)) :
    (fill available calls length offset).isSome = true := by
  induction calls generalizing length offset with
  | nil =>
    rw [List.countP_nil, Nat.le_zero] at h
    rw [h, fill_zero]
    rfl
  | cons call calls ih =>
    by_cases hzero : length = 0
    · rw [hzero, fill_zero]
      rfl
    cases call with
    | interrupted =>
      rw [fill_interrupted hzero]
      exact ih offset (by simpa using h)
    | upTo most =>
      have hcount : length ≤ calls.countP (· ≠ .interrupted) + 1 := by simpa using h
      cases htransfer : transfer available most length offset with
      | error cause =>
        rw [fill_of_error hzero htransfer]
        rfl
      | ok piece =>
        by_cases hne : piece = []
        · rw [fill_of_nil hzero (hne ▸ htransfer)]
          rfl
        · have hpos : 0 < piece.length := List.length_pos_iff.mpr hne
          rw [fill_of_ne_nil hzero htransfer hne, Option.isSome_map]
          exact ih _ (by omega)

/-! ## Files and memory -/

variable {t : FileTree} {path : String} {id : ℕ}

/-- The bytes that a read of a node can move. -/
def availableAt (t : FileTree) : FileNode → Option (List UInt8)
  | .file id => some (t.content id)
  | .directory => none

/-- What an open file shows of a read is what filling comes to. -/
theorem ends_read_eq_wholeRead (node : FileNode) (size length : ℕ) (offset : UInt64)
    (t : FileTree) :
    ((medium node size).read length offset).ends t =
      ((wholeRead (t.availableAt node) length offset).mapError
        fun _ ↦ .truncatedRead offset.toNat length, t) := by
  rw [medium]
  dsimp only
  rw [Task.ends_bind_of_ok (Task.ends_get t), wholeRead]
  cases node with
  | directory =>
    dsimp only [availableAt]
    cases refusal? (Option.map List.length none) length offset with
    | none => rfl
    | some cause => rfl
  | file id =>
    dsimp only [availableAt]
    cases refusal? (Option.map List.length (some (t.content id))) length offset with
    | none => rfl
    | some cause => rfl

/-- **A file and memory serve reads alike,** except for empty reads behind the end. A read in memory
gets its bytes exactly if they are all there, to the last offset that a word can tell, and is
refused whole otherwise, with positions that are words too. A read of an unchanged file of the same
bytes comes to the same in however many pieces it is served, as long as it is not empty or begins
within the bytes; an empty read behind them succeeds in the file alone. -/
theorem openFile_read_eq_iff {σ : Type} (hpath : t.resolve path = .ok (.file id))
    (hlimit : (t.content id).length < positionLimit) (s : σ) :
    let bytes := t.content id
    ∃ m, (openFile path).ends t = (.ok m, t) ∧ ∀ (length : ℕ) (offset : UInt64),
      let inFile := (m.read length offset).ends t
      let inMemory := ((Medium.ofBytes bytes).read length offset).ends s
      let slice := (bytes.drop offset.toNat).take length
      inMemory = (if offset.toNat + length ≤ bytes.length then .ok slice
        else .error (.truncatedRead offset.toNat length), s) ∧
      (length < UInt64.size →
        ((Medium.ofBytesChecked bytes).read length offset).ends s = inMemory) ∧
      inFile = (if length = 0 ∨ offset.toNat + length ≤ bytes.length then .ok slice
        else .error (.truncatedRead offset.toNat length), t) ∧
      (inFile.1 = inMemory.1 ↔ 0 < length ∨ offset.toNat ≤ bytes.length) ∧
      ∀ calls, (length ≤ calls.countP (· ≠ .interrupted) →
          (fill (some bytes) calls length offset).isSome) ∧
        ∀ outcome, fill (some bytes) calls length offset = some outcome →
          inFile.1 = outcome.mapError fun _ ↦ .truncatedRead offset.toNat length := by
  intro bytes
  refine ⟨_, ends_openFile hpath, ?_⟩
  intro length offset inFile inMemory slice
  have hmemory := Medium.ends_read_ofBytes bytes length offset s
  have hfile := ends_read_file hlimit bytes.length length offset
  have hword : bytes.length < UInt64.size := hlimit.trans (by decide)
  refine ⟨hmemory, fun hlength ↦ ?checked, hfile, ?agree, fun calls ↦
    ⟨isSome_fill (some bytes) offset, ?pieces⟩⟩
  case checked => rw [Medium.read_ofBytesChecked hword hlength]
  case agree =>
    rw [show inFile = _ from hfile, show inMemory = _ from hmemory]
    dsimp only
    by_cases hle : offset.toNat + length ≤ bytes.length
    · rw [if_pos (Or.inr hle), if_pos hle]
      exact iff_of_true rfl (Or.inr (by omega))
    · by_cases hempty : length = 0
      · rw [if_pos (Or.inl hempty), if_neg hle]
        exact iff_of_false nofun (by omega)
      · rw [if_neg (not_or.mpr ⟨hempty, hle⟩), if_neg hle]
        exact iff_of_true rfl (Or.inl (Nat.pos_of_ne_zero hempty))
  case pieces =>
    intro outcome hfill
    have hwhole := ends_read_eq_wholeRead (.file id) bytes.length length offset t
    rw [fill_eq hfill]
    exact congrArg Prod.fst hwhole

/-- The last two bytes of a file come one by one, the second after an interruption. -/
theorem openFile_read_eq_iff_onePiece :
    let t := (FileTree.empty ["work"]).write "a" [1, 2, 3]
    ∃ m, (openFile "a").ends t = (.ok m, t) ∧
      fill (some [1, 2, 3]) [.upTo 0, .interrupted, .upTo 0] 2 1 = some (.ok [2, 3]) ∧
      ((m.read 2 1).ends t).1 = .ok [2, 3] ∧
      ((m.read 2 1).ends t).1 = (((Medium.ofBytes [1, 2, 3]).read 2 1).ends ()).1 := by
  intro t
  have hpath : t.resolve "a" = .ok (.file 0) := by decide +kernel
  have hcontent : t.content 0 = [1, 2, 3] := by decide +kernel
  have hfill : fill (some [1, 2, 3]) [.upTo 0, .interrupted, .upTo 0] 2 1 = some (.ok [2, 3]) := by
    decide +kernel
  obtain ⟨m, hopen, hreads⟩ := openFile_read_eq_iff hpath (by decide +kernel) ()
  obtain ⟨-, -, -, hagree, hpieces⟩ := hreads 2 1
  rw [hcontent] at hagree hpieces
  exact ⟨m, hopen, hfill, (hpieces _).2 _ hfill, hagree.mpr (Or.inl Nat.two_pos)⟩

/-- An empty read behind the end succeeds in a file and is refused in memory. -/
theorem openFile_emptyRead_behindEnd :
    let t := (FileTree.empty ["work"]).write "a" [1]
    ∃ m, (openFile "a").ends t = (.ok m, t) ∧ t.content 0 = [1] ∧
      ((m.read 0 2).ends t).1 = .ok [] ∧
      (((Medium.ofBytes [1]).read 0 2).ends ()).1 = .error (.truncatedRead 2 0) := by
  intro t
  have hpath : t.resolve "a" = .ok (.file 0) := by decide +kernel
  exact ⟨_, ends_openFile hpath, by decide +kernel, by decide +kernel, by decide +kernel⟩

end FileTree

end ElfUnwind
