import ElfUnwind.CommandLine.Run
import Mathlib.Data.List.MinMax
import Mathlib.Order.Bounds.Basic
import Mathlib.Order.Nat

/-!
# How a listing is shown

A listing is shown as a grid or as a list of objects, and both are said here without the code that
builds them (`Listing.Shows`). That is possible for texts of printable characters of ASCII, but for
quotes and backslashes: such a text takes one line of its cell and a column for each character, and
stands between quotes as it is (`Text.IsPlain`). Numbers, addresses and the names of encodings are
such texts, so among the values of frame entries only the augmentation strings could stand in the
way (`isPlain_cieListing`, `isPlain_fdeListing`).
-/

namespace ElfUnwind

/-! ## Plain texts -/

namespace Text

/-- The character is printable, within ASCII, and neither a quote nor a backslash. -/
def IsPlainChar (c : Char) : Prop := 0x20 ≤ c.toNat ∧ c.toNat < 0x7f ∧ c ≠ '"' ∧ c ≠ '\\'

instance : DecidablePred IsPlainChar := fun _ ↦ inferInstanceAs (Decidable (_ ∧ _))

/-- All characters of the text are shown as they are, also between quotes. -/
def IsPlain (text : String) : Prop := ∀ c ∈ text.toList, IsPlainChar c

instance : DecidablePred IsPlain := fun text ↦ List.decidableBAll IsPlainChar text.toList

variable {a b text : String}

theorem isPlain_append : IsPlain (a ++ b) ↔ IsPlain a ∧ IsPlain b := by
  rw [IsPlain, String.toList_append, List.forall_mem_append, IsPlain, IsPlain]

theorem isPlain_ofList {chars : List Char} :
    IsPlain (String.ofList chars) ↔ ∀ c ∈ chars, IsPlainChar c := by
  rw [IsPlain, String.toList_ofList]

theorem isPlainChar_digitChar {n : ℕ} (h : n < 16) : IsPlainChar n.digitChar := by
  have hall : ∀ k : Fin 16, IsPlainChar k.val.digitChar := by decide
  exact hall ⟨n, h⟩

theorem isPlainChar_of_mem_toDigits {base : ℕ} (hbase : 1 < base) (hle : base ≤ 16) (n : ℕ) :
    ∀ c ∈ Nat.toDigits base n, IsPlainChar c := by
  have hlast : ∀ k < base, ∀ c ∈ [k.digitChar], IsPlainChar c := fun k hk ↦
    List.forall_mem_singleton.mpr (isPlainChar_digitChar (Nat.lt_of_lt_of_le hk hle))
  induction n using Nat.strongRecOn with
  | _ n ih =>
    rw [Nat.toDigits_eq_if hbase]
    split
    · rename_i hlt
      exact hlast n hlt
    · rename_i hge
      have hpos : 0 < n := Nat.lt_of_lt_of_le (Nat.zero_lt_of_lt hbase) (Nat.le_of_not_lt hge)
      rw [List.forall_mem_append]
      exact ⟨ih (n / base) (Nat.div_lt_self hpos hbase),
        hlast (n % base) (Nat.mod_lt n (Nat.zero_lt_of_lt hbase))⟩

/-- A number to base sixteen, as it is shown. -/
def inHex (n : ℕ) : String := "0x" ++ String.ofList (Nat.toDigits 16 n)

theorem isPlain_inHex (n : ℕ) : IsPlain (inHex n) :=
  isPlain_append.mpr
    ⟨by decide, isPlain_ofList.mpr (isPlainChar_of_mem_toDigits (by decide) (by decide) n)⟩

theorem isPlain_toString (n : ℤ) : IsPlain (toString n) := by
  have hdigits : ∀ k : ℕ, IsPlain k.repr := by
    intro k
    rw [IsPlain, Nat.toList_repr]
    exact isPlainChar_of_mem_toDigits (by decide) (by decide) k
  rw [Int.toString_eq_repr]
  cases n with
  | ofNat k => exact hdigits k
  | negSucc k => exact isPlain_append.mpr ⟨by decide, hdigits k.succ⟩

theorem IsPlain.newline_not_mem (h : IsPlain text) : '\n' ∉ text.toList :=
  fun hmem ↦ absurd (h _ hmem) (by decide)

/-- A plain text takes a column for each character. -/
theorem IsPlain.lineWidth_eq (h : IsPlain text) : lineWidth text.toList = text.length := by
  rw [lineWidth_of_forall_le fun c hc ↦ by have := (h c hc).2.1; omega, String.length_toList]

end Text

/-! ## Encodings in words -/

namespace PointerEncoding

/-- What the value of a pointer is relative to, in words, from the three bits of the byte. -/
def relativeText : ℕ → String
  | 0 => ""
  | 1 => "DW_EH_PE_pcrel | "
  | 2 => "DW_EH_PE_textrel | "
  | 3 => "DW_EH_PE_datarel | "
  | 4 => "DW_EH_PE_funcrel | "
  | 5 => "DW_EH_PE_aligned | "
  | 6 => "0x60 | "
  | _ => "0x70 | "

/-- The format of a pointer, in words, from the low half of the byte. -/
def formatText : ℕ → String
  | 0 => "DW_EH_PE_absptr"
  | 1 => "DW_EH_PE_uleb128"
  | 2 => "DW_EH_PE_udata2"
  | 3 => "DW_EH_PE_udata4"
  | 4 => "DW_EH_PE_udata8"
  | 9 => "DW_EH_PE_sleb128"
  | 10 => "DW_EH_PE_sdata2"
  | 11 => "DW_EH_PE_sdata4"
  | 12 => "DW_EH_PE_sdata8"
  | n => "0x0" ++ String.ofList [n.digitChar]

/-- The byte of an encoding in words. -/
def text (e : PointerEncoding) : String :=
  if e.byte.toNat = 255 then "DW_EH_PE_omit"
  else (if 128 ≤ e.byte.toNat then "DW_EH_PE_indirect | " else "") ++
    relativeText (e.byte.toNat / 16 % 8) ++ formatText (e.byte.toNat % 16)

theorem isPlain_text (e : PointerEncoding) : Text.IsPlain e.text := by
  have hrelative : ∀ n : Fin 8, Text.IsPlain (relativeText n) := by decide
  have hformat : ∀ n : Fin 16, Text.IsPlain (formatText n) := by decide
  rw [text]
  split
  · decide
  · rw [Text.isPlain_append, Text.isPlain_append]
    refine ⟨⟨?_, hrelative ⟨_, Nat.mod_lt _ (by decide)⟩⟩, hformat ⟨_, Nat.mod_lt _ (by decide)⟩⟩
    split <;> decide

theorem name_eq_text (e : PointerEncoding) : e.name = e.text := by
  have hall : ∀ b : Fin 256, (⟨UInt8.ofFin b⟩ : PointerEncoding).name = text ⟨UInt8.ofFin b⟩ := by
    decide +kernel
  exact hall e.byte.toFin

end PointerEncoding

open Text

namespace CommandLine

/-! ## Objects -/

theorem escapeJson_of_isPlainChar {c : Char} (h : IsPlainChar c) : escapeJson c = [c] := by
  obtain ⟨hblank, -, hquote, hslash⟩ := h
  have hne : ∀ d : Char, d.toNat < 0x20 → c ≠ d := by
    rintro _ hd rfl
    omega
  rw [escapeJson, if_neg hquote, if_neg hslash, if_neg (hne _ (by decide)),
    if_neg (hne _ (by decide)), if_neg (hne _ (by decide)), if_neg (hne _ (by decide)),
    if_neg (hne _ (by decide)), if_neg (Nat.not_lt.mpr hblank)]

theorem jsonText_of_isPlain {text : String} (h : IsPlain text) :
    jsonText text = "\"" ++ text ++ "\"" := by
  have hsame : text.toList.flatMap escapeJson = text.toList := by
    rw [List.flatMap_def, List.map_congr_left fun c hc ↦ escapeJson_of_isPlainChar (h c hc),
      ← List.flatMap_def, List.flatMap_singleton']
  rw [← String.toList_inj, jsonText, hsame, String.toList_ofList]
  simp

/-- What a grid shows of a value. -/
def Value.shown : Value → String
  | text value => value
  | number value => toString value

/-- What an object shows of a value: a text between quotes, a number without them. -/
def Value.quoted : Value → String
  | text value => "\"" ++ value ++ "\""
  | number value => toString value

theorem Value.json_of_isPlain {v : Value} (h : IsPlain v.shown) : v.json = v.quoted := by
  cases v with
  | text value => exact jsonText_of_isPlain h
  | number value => rfl

namespace Listing

variable {l : Listing}

/-- The texts of a listing are plain. -/
structure IsPlain (l : Listing) : Prop where
  columns : ∀ c ∈ l.columns, Text.IsPlain c.heading ∧ Text.IsPlain c.key
  rows : ∀ row ∈ l.rows, ∀ v ∈ row, Text.IsPlain v.shown

/-- A row as an object: each value with the key of its column, on a line of its own. -/
def objectText (l : Listing) (row : List Value) : String :=
  "  \x7b\n" ++
    ",\n".intercalate ((l.columns.zip row).map fun (column, value) ↦
      "    \"" ++ column.key ++ "\": " ++ value.quoted) ++
    "\n  \x7d"

theorem IsPlain.objectLines_eq (h : l.IsPlain) {row : List Value} (hrow : row ∈ l.rows) :
    objectLines l.columns row = l.objectText row := by
  have hentry : ∀ entry ∈ l.columns.zip row,
      "    " ++ jsonText entry.1.key ++ ": " ++ entry.2.json =
        "    \"" ++ entry.1.key ++ "\": " ++ entry.2.quoted := by
    intro entry hentry
    obtain ⟨hcolumn, hvalue⟩ := List.of_mem_zip hentry
    rw [jsonText_of_isPlain (h.columns _ hcolumn).2,
      Value.json_of_isPlain (h.rows row hrow _ hvalue), ← String.toList_inj]
    simp
  rw [objectLines, objectText, List.map_congr_left hentry]

end Listing

/-! ## Grids -/

theorem splitLines_of_not_mem {text : List Char} (h : '\n' ∉ text) : splitLines text = [text] := by
  induction text with
  | nil => rfl
  | cons c cs ih =>
    rw [List.mem_cons, not_or] at h
    rw [splitLines, if_neg (Ne.symm h.1), ih h.2]

namespace Grid

/-- The line of a row: its texts, with blanks behind them up to the widths of the columns, and set
off by blanks. -/
def line (widths : List ℕ) (texts : List String) : String :=
  "|".intercalate <| (widths.zip texts).map fun (width, text) ↦
    " " ++ text ++ String.ofList (List.replicate (width - text.length) ' ') ++ " "

/-- The line under the headings. -/
def ruleText (widths : List ℕ) : String :=
  "+".intercalate (widths.map fun width ↦ String.ofList (List.replicate (width + 2) '-'))

theorem cell_of_isPlain {v : Value} (h : IsPlain v.shown) : cell v = [v.shown.toList] := by
  cases v with
  | text value => exact splitLines_of_not_mem h.newline_not_mem
  | number value => exact splitLines_of_not_mem h.newline_not_mem

theorem height_of_lines (texts : List String) :
    ((texts.map fun t ↦ [t.toList]).map List.length).foldr max 1 = 1 := by
  induction texts with
  | nil => rfl
  | cons t ts ih => rw [List.map_cons, List.map_cons, List.foldr_cons, ih]; rfl

/-- A row of plain texts has one line. -/
theorem rowLines_of_isPlain (widths : List ℕ) {texts : List String} (h : ∀ t ∈ texts, IsPlain t) :
    rowLines widths (texts.map fun t ↦ [t.toList]) = [(line widths texts).toList] := by
  rw [rowLines, height_of_lines, line, String.toList_intercalate, List.map_map, List.zip_map_right,
    List.range_one, List.map_singleton, List.map_map]
  refine congrArg (fun parts ↦ [['|'].intercalate parts]) (List.map_congr_left ?_)
  rintro ⟨width, text⟩ hmem
  simp [padTo, (h text (List.of_mem_zip hmem).2).lineWidth_eq]

theorem cellWidth_getD {texts : List String} (h : ∀ t ∈ texts, IsPlain t) (i : ℕ) :
    cellWidth ((texts.map fun t ↦ [t.toList]).getD i []) = (texts.getD i "").length := by
  rw [List.getD_eq_getElem?_getD, List.getD_eq_getElem?_getD, List.getElem?_map]
  cases htext : texts[i]? with
  | none => rfl
  | some t =>
    have hwidth := (h t (List.mem_of_getElem? htext)).lineWidth_eq
    simp [cellWidth, hwidth]

theorem rule_eq_toList (widths : List ℕ) : rule widths = (ruleText widths).toList := by
  rw [ruleText, String.toList_intercalate, List.map_map, rule]
  congr 2
  funext width
  exact String.toList_ofList.symm

end Grid

namespace Listing

variable {l : Listing}

/-- The texts of a grid, row by row, the headings first. -/
def texts (l : Listing) : List (List String) :=
  l.columns.map Column.heading :: l.rows.map fun row ↦ row.map Value.shown

/-- There is a width for each column, the greatest length of a text that stands in it. -/
structure IsFitted (l : Listing) (widths : List ℕ) : Prop where
  length : widths.length = l.columns.length
  greatest : ∀ i w, widths[i]? = some w →
    IsGreatest {n | ∃ row ∈ l.texts, (row.getD i "").length = n} w

/-- The lines of a grid with these widths: the headings, a rule, and one line for each row. -/
def gridLines (l : Listing) (widths : List ℕ) : List String :=
  Grid.line widths (l.columns.map Column.heading) :: Grid.ruleText widths ::
    l.rows.map fun row ↦ Grid.line widths (row.map Value.shown)

theorem IsPlain.texts (h : l.IsPlain) : ∀ row ∈ l.texts, ∀ t ∈ row, Text.IsPlain t := by
  refine List.forall_mem_cons.mpr ⟨fun t ht ↦ ?_, fun row hrow t ht ↦ ?_⟩
  · obtain ⟨c, hc, rfl⟩ := List.mem_map.mp ht
    exact (h.columns c hc).1
  · obtain ⟨values, hvalues, rfl⟩ := List.mem_map.mp hrow
    obtain ⟨v, hv, rfl⟩ := List.mem_map.mp ht
    exact h.rows values hvalues v hv

/-- The cells of a plain listing hold a line each. -/
theorem IsPlain.cells_eq (h : l.IsPlain) :
    (l.columns.map fun c ↦ splitLines c.heading.toList) :: l.rows.map (·.map Grid.cell) =
      l.texts.map fun row ↦ row.map fun t ↦ [t.toList] := by
  rw [Listing.texts, List.map_cons, List.map_map, List.map_map]
  refine congrArg₂ List.cons (List.map_congr_left fun c hc ↦ ?_)
    (List.map_congr_left fun row hrow ↦ ?_)
  · exact splitLines_of_not_mem (h.columns c hc).1.newline_not_mem
  · rw [Function.comp_apply, List.map_map]
    exact List.map_congr_left fun v hv ↦ Grid.cell_of_isPlain (h.rows row hrow v hv)

end Listing

theorem isGreatest_foldr_max {ns : List ℕ} (h : ns ≠ []) :
    IsGreatest {n | n ∈ ns} (ns.foldr max 0) :=
  List.maximum_eq_coe_iff.mp (List.foldr_max_of_ne_nil h).symm

namespace Listing

variable {l : Listing}

/-- The widths of the columns, as the code that builds a grid computes them. -/
def widths (l : Listing) : List ℕ :=
  Grid.columnWidths l.columns.length (l.texts.map fun row ↦ row.map fun t ↦ [t.toList])

theorem IsPlain.isFitted_widths (h : l.IsPlain) : l.IsFitted l.widths where
  length := by rw [widths, Grid.columnWidths, List.length_map, List.length_range]
  greatest := by
    intro i w hw
    have hi : i < l.columns.length := by
      have hlt := (List.getElem?_eq_some_iff.mp hw).1
      rwa [widths, Grid.columnWidths, List.length_map, List.length_range] at hlt
    -- A cell is as wide as its one line, and that as it is long.
    have hlengths : (l.texts.map fun row ↦ row.map fun t ↦ [t.toList]).map
        (fun row ↦ Grid.cellWidth (row.getD i [])) =
          l.texts.map fun row ↦ (row.getD i "").length := by
      rw [List.map_map]
      exact List.map_congr_left fun row hrow ↦ Grid.cellWidth_getD (h.texts row hrow) i
    rw [widths, Grid.columnWidths, List.getElem?_map, List.getElem?_range hi, Option.map_some,
      Option.some_inj, hlengths] at hw
    have hne : l.texts.map (fun row ↦ (row.getD i "").length) ≠ [] := List.cons_ne_nil _ _
    have hgreatest := isGreatest_foldr_max hne
    simp only [List.mem_map] at hgreatest
    rwa [hw] at hgreatest

theorem IsPlain.lines_eq (h : l.IsPlain) :
    Grid.lines l = (l.gridLines l.widths).map String.toList := by
  obtain ⟨hheadings, hcells⟩ := List.cons.inj h.cells_eq
  have hwidths : Grid.columnWidths l.columns.length
      ((l.columns.map fun c ↦ splitLines c.heading.toList) :: l.rows.map (·.map Grid.cell)) =
        l.widths := by rw [h.cells_eq, widths]
  have hrow : ∀ row ∈ l.rows.map (fun row ↦ row.map Value.shown),
      Grid.rowLines l.widths (row.map fun t ↦ [t.toList]) = [(Grid.line l.widths row).toList] :=
    fun row hrow ↦ Grid.rowLines_of_isPlain l.widths (h.texts row (List.mem_cons_of_mem _ hrow))
  calc Grid.lines l
      = Grid.rowLines l.widths (l.columns.map fun c ↦ splitLines c.heading.toList) ++
          [Grid.rule l.widths] ++
          (l.rows.map (·.map Grid.cell)).flatMap (Grid.rowLines l.widths) := by
        rw [← hwidths]
        rfl
    _ = [(Grid.line l.widths (l.columns.map Column.heading)).toList] ++ [Grid.rule l.widths] ++
          (l.rows.map fun row ↦ row.map Value.shown).map
            fun row ↦ (Grid.line l.widths row).toList := by
        rw [hheadings, hcells, List.flatMap_map, List.flatMap_def, List.map_congr_left hrow,
          ← List.flatMap_def, ← List.map_eq_flatMap,
          Grid.rowLines_of_isPlain l.widths (h.texts _ List.mem_cons_self)]
    _ = (l.gridLines l.widths).map String.toList := by
        simp [gridLines, Grid.rule_eq_toList]

/-- A text that shows a listing, as objects or as a grid. An empty grid is a sentence. -/
inductive Shows (l : Listing) (sentence : String) : (json : Bool) → String → Prop where
  | noObjects : l.rows = [] → Shows l sentence true "[]\n"
  | objects : l.rows ≠ [] →
      Shows l sentence true ("[\n" ++ ",\n".intercalate (l.rows.map l.objectText) ++ "\n]\n")
  | sentence : l.rows = [] → Shows l sentence false (sentence ++ "\n")
  | grid {widths : List ℕ} : l.rows ≠ [] → l.IsFitted widths →
      Shows l sentence false ("\n".intercalate (l.gridLines widths) ++ "\n")

/-- **A plain listing is shown**, in one of four ways. -/
theorem IsPlain.shows (h : l.IsPlain) (json : Bool) (sentence : String) :
    l.Shows sentence json (showListing l json sentence) := by
  by_cases hrows : l.rows = []
  · cases json with
    | true =>
      have htext : showListing l true sentence = "[]\n" := by
        simp [showListing, Listing.json, hrows]
      exact htext ▸ .noObjects hrows
    | false =>
      have htext : showListing l false sentence = sentence ++ "\n" := by
        simp [showListing, hrows]
      exact htext ▸ .sentence hrows
  · cases json with
    | true =>
      have htext : showListing l true sentence =
          "[\n" ++ ",\n".intercalate (l.rows.map l.objectText) ++ "\n]\n" := by
        rw [showListing, Listing.json, if_pos rfl, if_neg (by simpa using hrows),
          List.map_congr_left fun row hrow ↦ h.objectLines_eq hrow, String.append_assoc]
        rfl
      exact htext ▸ .objects hrows
    | false =>
      have htext : showListing l false sentence =
          "\n".intercalate (l.gridLines l.widths) ++ "\n" := by
        have hgrid : l.grid = "\n".intercalate (l.gridLines l.widths) := by
          rw [← String.toList_inj, String.toList_intercalate, grid, String.toList_ofList,
            h.lines_eq]
          rfl
        simp [showListing, hrows, hgrid]
      exact htext ▸ .grid hrows h.isFitted_widths

/-- A listing has these columns, given by heading and key, and a row for each entry, in the order of
the entries and with its values. -/
structure Lists {α : Type} (l : Listing) (columns : List (String × String)) (entries : List α)
    (values : α → List Value) : Prop where
  columns : l.columns.map (fun c ↦ (c.heading, c.key)) = columns
  count : l.rows.length = entries.length
  rows : ∀ (i : ℕ) entry, entries[i]? = some entry → l.rows[i]? = some (values entry)

end Listing

/-! ## Frame entries -/

/-- The headings and the keys of the columns for CIEs. -/
def cieColumns : List (String × String) :=
  [("Offset", "offset"), ("Version", "version"), ("Augmentation", "augmentation"),
    ("DataAlign", "data_alignment_factor"), ("FDE encoding", "fde_encoding"),
    ("LSDA encoding", "lsda_encoding"), ("Insts", "instructions")]

/-- The values of a CIE. Without a pointer to language-specific data there is no encoding of it. -/
def cieValues (c : Cie) : List Value :=
  [.text (inHex c.offset), .number c.version.toNat, .text c.augmentation,
    .number c.dataAlignment.toInt, .text c.addressEncoding.text,
    .text (if c.lsdaEncoding.byte = 0 ∨ c.lsdaEncoding.byte = 255 then "-"
      else c.lsdaEncoding.text),
    .number c.instructions.length]

/-- The headings and the keys of the columns for FDEs. -/
def fdeColumns : List (String × String) :=
  [("Offset", "offset"), ("CIE", "cie"), ("Start", "start"), ("End", "end"), ("Size", "size"),
    ("Insts", "instructions")]

/-- The values of an FDE. -/
def fdeValues (f : Fde) : List Value :=
  [.text (inHex f.offset), .text (inHex f.cie.offset), .text (inHex f.start.toNat),
    .text (inHex f.stop.toNat), .number (f.stop - f.start).toNat, .number f.instructions.length]

theorem lsdaText_eq (c : Cie) :
    (if c.hasLsda then c.lsdaEncoding.name else "-") =
      if c.lsdaEncoding.byte = 0 ∨ c.lsdaEncoding.byte = 255 then "-" else c.lsdaEncoding.text := by
  have homitted : c.lsdaEncoding = .omitted ↔ c.lsdaEncoding.byte = 255 := by
    rw [PointerEncoding.omitted, PointerEncoding.mk.injEq]
  rw [← PointerEncoding.name_eq_text, Cie.hasLsda]
  by_cases hzero : c.lsdaEncoding.byte = 0
  · simp [hzero]
  by_cases hfull : c.lsdaEncoding.byte = 255
  · simp [hfull, homitted]
  · simp [hzero, hfull, homitted]

theorem lists_cieListing (cies : List Cie) : (cieListing cies).Lists cieColumns cies cieValues where
  columns := rfl
  count := length_rows_cieListing cies
  rows := by
    intro i c hc
    rw [cieListing, List.getElem?_map, hc, Option.map_some, lsdaText_eq,
      PointerEncoding.name_eq_text]
    rfl

theorem lists_fdeListing (fdes : List Fde) : (fdeListing fdes).Lists fdeColumns fdes fdeValues where
  columns := rfl
  count := length_rows_fdeListing fdes
  rows := by
    intro i f hf
    rw [fdeListing, List.getElem?_map, hf]
    rfl

theorem Listing.Lists.exists_of_mem {α : Type} {l : Listing} {columns : List (String × String)}
    {entries : List α} {values : α → List Value} (h : l.Lists columns entries values)
    {row : List Value} (hrow : row ∈ l.rows) : ∃ entry ∈ entries, row = values entry := by
  obtain ⟨i, hi, rfl⟩ := List.getElem_of_mem hrow
  have hlt : i < entries.length := h.count ▸ hi
  have hvalues := h.rows i entries[i] (List.getElem?_eq_getElem hlt)
  rw [List.getElem?_eq_getElem hi] at hvalues
  exact ⟨entries[i], List.getElem_mem hlt, Option.some.inj hvalues⟩

theorem isPlain_cieListing {cies : List Cie} (h : ∀ c ∈ cies, IsPlain c.augmentation) :
    (cieListing cies).IsPlain where
  columns := by simp only [cieListing]; decide
  rows := by
    intro row hrow
    obtain ⟨c, hc, rfl⟩ := (lists_cieListing cies).exists_of_mem hrow
    have hlsda : IsPlain (if c.lsdaEncoding.byte = 0 ∨ c.lsdaEncoding.byte = 255 then "-"
        else c.lsdaEncoding.text) := by
      split
      · decide
      · exact c.lsdaEncoding.isPlain_text
    simp only [cieValues, List.forall_mem_cons]
    exact ⟨isPlain_inHex _, isPlain_toString _, h c hc, isPlain_toString _,
      c.addressEncoding.isPlain_text, hlsda, isPlain_toString _, List.forall_mem_nil _⟩

theorem isPlain_fdeListing (fdes : List Fde) : (fdeListing fdes).IsPlain where
  columns := by simp only [fdeListing]; decide
  rows := by
    intro row hrow
    obtain ⟨f, -, rfl⟩ := (lists_fdeListing fdes).exists_of_mem hrow
    simp only [fdeValues, List.forall_mem_cons]
    exact ⟨isPlain_inHex _, isPlain_inHex _, isPlain_inHex _, isPlain_inHex _, isPlain_toString _,
      isPlain_toString _, List.forall_mem_nil _⟩

end CommandLine

end ElfUnwind
