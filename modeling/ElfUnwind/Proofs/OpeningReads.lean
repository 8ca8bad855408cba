import ElfUnwind.Proofs.Opening
import ElfUnwind.Proofs.PlannedReads

/-!
# The reads of opening

Opening an image makes its reads by plan (`Opening.plan`): the identification, the file header, the
section entry of the table of names, that table, all section entries and all segment entries. Over a
medium that fails in any way, what was made is the front of the plan up to the first read that
failed or that a check forbade (`Image.read_byPlan`).
-/

namespace ElfUnwind

namespace Opening

variable (got : Served)

/-- The class that the identification declares, which is served first. -/
def elfClass : ElfClass := OnDisk.elfClass (got.getD 0 [])

/-- The file header, which is served second. -/
def header : FileHeader := FileHeader.ofBytes (elfClass got) (got.getD 1 [])

/-- The entry of the table of names, which is served third. -/
def nameEntry : SectionEntry := SectionEntry.ofBytes (elfClass got) (got.getD 2 [])

/-- The read of an entry of the section table. -/
def sectionRead (index : Nat) : PlannedRead :=
  .entry (header got).sectionTable index (header got).sectionEntrySize
    (elfClass got).sectionEntrySize

/-- The read of an entry of the segment table. -/
def segmentRead (index : Nat) : PlannedRead :=
  .entry (header got).segmentTable index (header got).segmentEntrySize
    (elfClass got).segmentEntrySize

/-- The reads of opening in their order. -/
def plan (size : Nat) : List PlannedRead :=
  [⟨[], ElfClass.identSize, 0⟩,
   ⟨OnDisk.identChecks (got.getD 0 []), (elfClass got).headerSize, 0⟩,
   (sectionRead got (header got).nameTableIndex.toNat).behind
     [⟨(header got).nameTableIndex ≠ 0, .missingNameTable⟩],
   .range size (nameEntry got).size (nameEntry got).offset] ++
  ((List.range (header got).sectionCount.toNat).map (sectionRead got) ++
    (List.range (header got).segmentCount.toNat).map (segmentRead got))

/-- The read that is due. -/
def due? (size : Nat) : ReadPlan := fun got ↦ (plan got size)[got.length]?

/-! ## What the plan depends on -/

theorem length_plan (size : Nat) :
    (plan got size).length =
      4 + (header got).sectionCount.toNat + (header got).segmentCount.toNat := by
  simp only [plan, List.length_append, List.length_map, List.length_range, Nat.add_assoc]
  rfl

/-- The read that is due stays in its place, whatever is served later. -/
theorem getElem?_plan_append (got more : Served) (size : Nat) :
    (plan (got ++ more) size)[got.length]? = due? size got := by
  match got with
  | [] => rfl
  | [_] => rfl
  | [_, _] => rfl
  | _ :: _ :: _ :: _ => rfl

variable {got} {size index : Nat} {h : FileHeader}

/-- The header is known, and so many reads were served. -/
def Knows (h : FileHeader) (count : Nat) (got : Served) : Prop :=
  got.length = count ∧ header got = h

theorem Knows.append {count : Nat} (hcount : 2 ≤ count) (hknows : Knows h count got)
    (bytes : List UInt8) : Knows h (count + 1) (got ++ [bytes]) := by
  obtain ⟨rfl, rfl⟩ := hknows
  refine ⟨List.length_append, ?_⟩
  match got with
  | _ :: _ :: _ => rfl

theorem nameEntry_append (hlength : got.length = 2) (bytes : List UInt8) :
    nameEntry (got ++ [bytes]) = SectionEntry.ofBytes (elfClass got) bytes := by
  match got, hlength with
  | [_, _], _ => rfl

theorem due?_one (h : got.length = 1) :
    due? size got =
      some ⟨OnDisk.identChecks (got.getD 0 []), (elfClass got).headerSize, 0⟩ := by
  rw [due?, h]
  rfl

theorem due?_two (h : got.length = 2) :
    due? size got = some ((sectionRead got (header got).nameTableIndex.toNat).behind
      [⟨(header got).nameTableIndex ≠ 0, .missingNameTable⟩]) := by
  rw [due?, h]
  rfl

theorem due?_three (h : got.length = 3) :
    due? size got = some (.range size (nameEntry got).size (nameEntry got).offset) := by
  rw [due?, h]
  rfl

/-- The reads behind the first four are those of entries. -/
theorem getElem?_plan_add (got : Served) (size index : Nat) :
    (plan got size)[4 + index]? =
      ((List.range (header got).sectionCount.toNat).map (sectionRead got) ++
        (List.range (header got).segmentCount.toNat).map (segmentRead got))[index]? := by
  rw [Nat.add_comm]
  rfl

theorem due?_section (hindex : index < h.sectionCount.toNat) (hknows : Knows h (4 + index) got) :
    due? size got = some (sectionRead got index) := by
  obtain ⟨hlength, rfl⟩ := hknows
  rw [due?, hlength, getElem?_plan_add,
    List.getElem?_append_left (by rwa [List.length_map, List.length_range]), List.getElem?_map,
    List.getElem?_range hindex]
  rfl

theorem due?_segment (hindex : index < h.segmentCount.toNat)
    (hknows : Knows h (4 + h.sectionCount.toNat + index) got) :
    due? size got = some (segmentRead got index) := by
  obtain ⟨hlength, rfl⟩ := hknows
  have hsections :
      ((List.range (header got).sectionCount.toNat).map (sectionRead got)).length =
        (header got).sectionCount.toNat := by
    rw [List.length_map, List.length_range]
  rw [due?, hlength, Nat.add_assoc, getElem?_plan_add,
    List.getElem?_append_right (hsections.le.trans (Nat.le_add_right _ index)), hsections,
    Nat.add_sub_cancel_left, List.getElem?_map, List.getElem?_range hindex]
  rfl

/-! ## Each part of opening follows the plan -/

/-- The checks of an identification that is served whole find what is wrong with it. -/
theorem run_identChecks {bytes : List UInt8} (h : bytes.length = ElfClass.identSize) :
    Agree (fun _ c ↦ c = OnDisk.elfClass bytes) (Check.run (OnDisk.identChecks bytes))
      ((ElfClass.ofIdent bytes).mapError .notAnImage) := by
  have hread : ((Medium.ofBytes bytes : Medium Unit).read ElfClass.identSize 0).ends () =
      (.ok bytes, ()) := by
    have hle : (0 : UInt64).toNat + ElfClass.identSize ≤ bytes.length := by
      rw [UInt64.toNat_zero, Nat.zero_add, h]
    rw [Task.ends, Medium.runFrom_read_ofBytes_of_le hle, UInt64.toNat_zero, List.drop_zero, ← h,
      List.take_length]
    rfl
  have hclass : (ElfClass.ofIdent bytes).mapError .notAnImage =
      (Check.run (OnDisk.identChecks bytes)).map fun _ ↦ OnDisk.elfClass bytes := by
    refine Eq.trans ?_ (congrArg Prod.fst (OnDisk.makes_readClass (σ := Unit) bytes ()))
    rw [Image.readClass, Task.ends_bind_of_ok hread]
    cases ElfClass.ofIdent bytes <;> rfl
  rw [hclass]
  cases Check.run (OnDisk.identChecks bytes) with
  | error e => exact .error e
  | ok _ => exact .ok rfl

section Follows

variable {σ : Type} {m : Medium σ} (hfull : m.Full)

include hfull

theorem follows_readClass :
    (Image.readClass m.recorded).Follows (due? m.size) [] fun got c ↦
      got.length = 1 ∧ c = elfClass got ∧
        Check.run (OnDisk.identChecks (got.getD 0 [])) = .ok () := by
  have hident : due? m.size [] = some ⟨[], ElfClass.identSize, 0⟩ := rfl
  refine (hfull.follows_read hident rfl).bind ?_
  rintro _ bytes ⟨hlength, rfl⟩
  have hagree := run_identChecks hlength
  cases hclass : ElfClass.ofIdent bytes with
  | error fault =>
    rw [hclass] at hagree
    exact Task.Follows.throw (due?_one rfl) (hagree.eq_error_iff.mpr rfl)
  | ok c =>
    rw [hclass] at hagree
    obtain ⟨_, hrun, hc⟩ := hagree.exists_of_ok_right
    exact Task.Follows.pure ⟨rfl, hc, hrun⟩

theorem follows_readHeader (hlength : got.length = 1)
    (hchecks : Check.run (OnDisk.identChecks (got.getD 0 [])) = .ok ()) :
    (Image.readHeader m.recorded (elfClass got)).Follows (due? m.size) got
      fun got' h ↦ Knows h 2 got' := by
  refine (hfull.follows_readEntry 0 (due?_one hlength) hchecks
    fun _ hentry ↦ FileHeader.decode?_eq hentry).bind ?_
  rintro _ h ⟨bytes, rfl, rfl⟩
  refine (Task.Follows.tell _ _ _).bind ?_
  rintro _ _ rfl
  match got, hlength with
  | [_], _ => exact Task.Follows.pure ⟨rfl, rfl⟩

theorem follows_readSectionEntry {checks : List Check} {index : UInt16}
    (hdue : due? m.size got = some ((sectionRead got index.toNat).behind checks))
    (hchecks : Check.run checks = .ok ()) :
    (Image.readSectionEntry m.recorded (header got) index).Follows (due? m.size) got
      fun got' entry ↦ ∃ bytes, got' = got ++ [bytes] ∧
        entry = SectionEntry.ofBytes (elfClass got) bytes :=
  hfull.follows_readEntry_table hdue hchecks fun _ hentry ↦ SectionEntry.decode?_eq hentry

theorem follows_readNameTable (hknows : Knows h 2 got) :
    (Image.readNameTable m.recorded h).Follows (due? m.size) got
      fun got' _ ↦ Knows h 4 got' := by
  obtain ⟨hlength, rfl⟩ := hknows
  have hdue : due? m.size got = _ := due?_two hlength
  rw [Image.readNameTable]
  by_cases hzero : (header got).nameTableIndex = 0
  · rw [if_pos hzero]
    exact Task.Follows.throw hdue (Check.run_cons_of_not_holds (by simpa using hzero) _)
  rw [if_neg hzero]
  have hnamed : Check.run [⟨(header got).nameTableIndex ≠ 0, .missingNameTable⟩] = .ok () :=
    Check.run_cons_of_holds (decide_eq_true hzero) []
  refine (follows_readSectionEntry hfull hdue hnamed).bind ?_
  rintro _ entry ⟨bytes, rfl, rfl⟩
  have hentry := Knows.append (Nat.le_refl 2) ⟨hlength, rfl⟩ bytes
  rw [← nameEntry_append hlength]
  refine (hfull.follows_readRange (due?_three hentry.1)).mono ?_
  rintro _ names ⟨-, rfl⟩
  exact hentry.append (by decide) names

theorem follows_readSection {names : List UInt8} {sections : SortedMap String Section}
    (hindex : index < h.sectionCount.toNat) (hknows : Knows h (4 + index) got) :
    (Image.readSection m.recorded h names sections index).Follows (due? m.size) got
      fun got' _ ↦ Knows h (4 + (index + 1)) got' := by
  have hdue : due? m.size got =
      some ((sectionRead got (UInt16.ofNat index).toNat).behind []) := by
    rw [OnDisk.toNat_ofNat_of_lt_toNat hindex]
    exact due?_section hindex hknows
  obtain ⟨hlength, rfl⟩ := hknows
  refine (follows_readSectionEntry hfull hdue rfl).bind ?_
  rintro _ entry ⟨bytes, rfl, -⟩
  have hknows := Knows.append (by omega) ⟨hlength, rfl⟩ bytes
  dsimp only
  split
  · exact Task.Follows.pure hknows
  · refine (Task.Follows.tell _ _ _).bind ?_
    rintro _ _ rfl
    exact Task.Follows.pure hknows

theorem follows_readSegment (hindex : index < h.segmentCount.toNat)
    (hknows : Knows h (4 + h.sectionCount.toNat + index) got) :
    (Image.readSegment m.recorded h index).Follows (due? m.size) got
      fun got' _ ↦ Knows h (4 + h.sectionCount.toNat + (index + 1)) got' := by
  have hdue : due? m.size got =
      some ((segmentRead got (UInt16.ofNat index).toNat).behind []) := by
    rw [OnDisk.toNat_ofNat_of_lt_toNat hindex]
    exact due?_segment hindex hknows
  obtain ⟨hlength, rfl⟩ := hknows
  refine (hfull.follows_readEntry_table hdue rfl
    fun _ hentry ↦ Segment.decode?_eq hentry).bind ?_
  rintro _ segment ⟨bytes, rfl, -⟩
  refine (Task.Follows.tell _ _ _).bind ?_
  rintro _ _ rfl
  exact Task.Follows.pure (Knows.append (by omega) ⟨hlength, rfl⟩ bytes)

theorem follows_readSections (hknows : Knows h 2 got) :
    (Image.readSections m.recorded h).Follows (due? m.size) got
      fun got' _ ↦ Knows h (4 + h.sectionCount.toNat) got' := by
  refine (follows_readNameTable hfull hknows).bind fun got' names hnames ↦ ?_
  rw [List.range_eq_range']
  exact Task.Follows.foldlM (V := fun index got' _ ↦ Knows h (4 + index) got')
    (fun index hindex got sections ↦ follows_readSection hfull hindex) (Nat.zero_add _) hnames

theorem follows_readSegments (hknows : Knows h (4 + h.sectionCount.toNat) got) :
    (Image.readSegments m.recorded h).Follows (due? m.size) got
      fun got' _ ↦ Knows h (4 + h.sectionCount.toNat + h.segmentCount.toNat) got' := by
  rw [Image.readSegments, List.range_eq_range']
  exact Task.Follows.mapM (V := fun index ↦ Knows h (4 + h.sectionCount.toNat + index))
    (fun index hindex got ↦ follows_readSegment hfull hindex) (Nat.zero_add _) hknows

/-- **Opening reads by plan**, and is done when nothing is due. -/
theorem follows_read (path : String) :
    (Image.read path m.recorded).Follows (due? m.size) [] fun got image ↦
      image.header = header got ∧ got.length = (plan got m.size).length := by
  refine (follows_readClass hfull).bind ?_
  rintro got _ ⟨hlength, rfl, hchecks⟩
  refine (follows_readHeader hfull hlength hchecks).bind fun got h hknows ↦ ?_
  refine (follows_readSections hfull hknows).bind fun got sections hknows ↦ ?_
  refine (follows_readSegments hfull hknows).bind fun got segments hknows ↦ ?_
  refine (Task.Follows.tell _ _ _).bind ?_
  rintro _ _ rfl
  obtain ⟨hlength, rfl⟩ := hknows
  exact Task.Follows.pure ⟨rfl, hlength.trans (length_plan _ _).symm⟩

end Follows

end Opening

/-- **Opening reads by plan, up to the first failure.** The reads it makes are the front of the
plan. A read is made only when all checks before it hold and all reads before it were served. A read
that fails is the last, and what opening fails with; any other failure is that of a check, and the
read behind the check is not made. An image is opened when all reads of the plan were served, four
and one for each section and segment. No entry that was read whole fails to be decoded. -/
theorem Image.read_byPlan {σ : Type} {m : Medium σ} (hfull : m.Full) (path : String) (s : σ) :
    let run := (Image.read path m.recorded).ends ([], s)
    let log := run.2.1
    let plan := Opening.plan (servedTo log) m.size
    (log.map fun r ↦ (r.length, r.offset)) <+: (plan.map fun read ↦ (read.length, read.offset)) ∧
      (∀ before r after, log = before ++ r :: after →
        (∀ b ∈ before, b.IsServed) ∧
          (∃ read, plan[before.length]? = some read ∧ ∀ c ∈ read.checks, c.holds = true) ∧
          ∀ e, r.outcome = .error e → after = [] ∧ run.1 = .error e) ∧
      (∀ e, run.1 = .error e →
        (∃ before r, log = before ++ [r] ∧ r.outcome = .error e) ∨
          (∀ r ∈ log, r.IsServed) ∧
            ∃ read, plan[log.length]? = some read ∧ Check.run read.checks = .error e) ∧
      (∀ image, run.1 = .ok image →
        (∀ r ∈ log, r.IsServed) ∧ image.header = Opening.header (servedTo log) ∧
          log.length = plan.length ∧
          log.length =
            4 + image.header.sectionCount.toNat + image.header.segmentCount.toNat) ∧
      (∀ c bytes, bytes.length = c.headerSize → (FileHeader.decode? c bytes).isSome = true) ∧
      (∀ c bytes, bytes.length = c.sectionEntrySize →
        (SectionEntry.decode? c bytes).isSome = true) ∧
      ∀ c bytes, bytes.length = c.segmentEntrySize → (Segment.decode? c bytes).isSome = true := by
  intro run log plan
  obtain ⟨made, reached, hmade, hlog, hagree⟩ := Opening.follows_read hfull path ([], s)
  obtain rfl : log = made := hlog
  change Agree _ reached run.1 at hagree
  have hdue {before after : List ReadRecord} (hsplit : log = before ++ after)
      (hbefore : ∀ b ∈ before, b.IsServed) :
      plan[before.length]? = Opening.due? m.size (servedTo before) := by
    rw [← length_servedTo hbefore, ← Opening.getElem?_plan_append _ (servedTo after),
      ← servedTo_append, ← hsplit]
  refine ⟨?front, ?reads, ?failures, ?success, ?header, ?sections, ?segments⟩
  case front =>
    refine List.prefix_iff_getElem?.mpr fun i hi ↦ ?_
    rw [List.length_map] at hi
    have hsplit : log = log.take i ++ log[i] :: log.drop (i + 1) := by
      rw [List.getElem_cons_drop, List.take_append_drop]
    rw [hsplit] at hmade
    obtain ⟨hbefore, ⟨read, hread, -, hlength, hoffset⟩, -⟩ := hmade.of_append
    have hplanned := (hdue hsplit hbefore).trans hread
    rw [List.length_take, Nat.min_eq_left (Nat.le_of_lt hi)] at hplanned
    rw [List.getElem?_map, hplanned, Option.map_some, List.getElem_map, hlength, hoffset]
  case reads =>
    intro before r after hsplit
    rw [hsplit] at hmade
    obtain ⟨hbefore, ⟨read, hread, hchecks, -, -⟩, hstop⟩ := hmade.of_append
    refine ⟨hbefore, ⟨read, (hdue hsplit hbefore).trans hread, Check.run_eq_ok_iff.mp hchecks⟩, ?_⟩
    exact fun e he ↦ ⟨(hstop e he).1, hagree.eq_error_iff.mp (hstop e he).2⟩
  case failures =>
    intro e he
    rw [hagree.eq_error_iff.mpr he] at hmade
    refine hmade.of_error.imp_right fun ⟨hserved, read, hread, hfails⟩ ↦ ?_
    exact ⟨hserved, read, (hdue (List.append_nil log).symm hserved).trans hread, hfails⟩
  case success =>
    intro image himage
    rw [himage] at hagree
    obtain ⟨got, rfl, hheader, hlength⟩ := hagree.exists_of_ok_right
    obtain ⟨hserved, rfl⟩ := hmade.of_ok
    rw [List.nil_append] at hheader hlength
    rw [length_servedTo hserved] at hlength
    refine ⟨hserved, hheader, hlength, ?_⟩
    rw [hlength, Opening.length_plan, hheader]
  case header =>
    intro c bytes h
    rw [FileHeader.decode?_eq h.ge]
    rfl
  case sections =>
    intro c bytes h
    rw [SectionEntry.decode?_eq h.ge]
    rfl
  case segments =>
    intro c bytes h
    rw [Segment.decode?_eq h.ge]
    rfl

/-- Where the third read fails, three reads were made and opening fails with that. -/
theorem Image.read_byPlan_fault :
    let run := (Image.read "bare" (Schedule.medium bareImage).recorded).ends
      ([], ⟨[⟨0, 2, 1⟩], 0⟩)
    (run.2.1.map fun r ↦ (r.length, r.offset)) = [(16, 0), (52, 0), (40, 0)] ∧
      (run.2.1.map fun r ↦ (r.length, r.offset)) <+:
        ((Opening.plan (servedTo run.2.1) bareImage.length).map
          fun read ↦ (read.length, read.offset)) ∧
      run.1 = .error (.truncatedRead 0 40) := by
  intro run
  obtain ⟨hfront, hreads, -⟩ :=
    Image.read_byPlan (Schedule.full_medium bareImage) "bare" ⟨[⟨0, 2, 1⟩], 0⟩
  have hlog : run.2.1 =
      [⟨16, 0, .ok (bareImage.take 16)⟩, ⟨52, 0, .ok bareImage⟩] ++
        [⟨40, 0, .error (.truncatedRead 0 40)⟩] := rfl
  exact ⟨congrArg (List.map _) hlog, hfront, ((hreads _ _ _ hlog).2.2 _ rfl).2⟩

end ElfUnwind
