import ElfUnwind.Proofs.FrameRequests
import ElfUnwind.Proofs.ToldPieces

/-!
# The narration of a pass

The log of a pass and the index it leaves can be told from one another: each length of zero and each
record has one line, these ascend, and but for a record that fails behind its identifier the lines
of records are those of entries (`FrameIndex.Narrates`). A request that decodes frames to their end
tells the pass and then how many entries there are, which can be counted in the log
(`narration_of_frames`).
-/

namespace ElfUnwind

namespace FrameIndex

open FrameEntry

/-! ## Lines and an index -/

/-- Lines tell of an index: its CIEs stand where their lines say, and each of its FDEs has a
line. -/
structure IsToldBy (index : FrameIndex) (lines : List Mark) : Prop where
  /-- The CIEs, in their order. -/
  cies : index.cies.keys = lines.filterMap Mark.cieOffset?
  /-- The FDEs. -/
  fdes : ∀ fde ∈ index.fdes.values, fde.offset ∈ lines.filterMap Mark.fdeOffset?

variable {context : FrameContext} {bytes : List UInt8} {p : Piece} {ps front back : List Piece}
  {index grown : FrameIndex} {e : Error} {es : List FrameEntry} {lines : List Mark}
  {starts : List UInt64}

/-- **The index of entries that were told.** -/
theorem isToldBy_addAll (kind : FrameSection) (h : AreTold es lines starts)
    (hlines : (lines.map Mark.offset).Pairwise (· < ·)) :
    ((empty kind).addAll es).IsToldBy lines where
  cies := by
    rw [h.cies]
    refine keys_cies_addAll kind ?_
    rw [← h.cies, List.pairwise_filterMap]
    refine (List.pairwise_map.mp hlines).imp fun hlt offset hoffset offset' hoffset' ↦ ?_
    rwa [← Mark.offset_of_cieOffset? hoffset, ← Mark.offset_of_cieOffset? hoffset']
  fdes fde hfde := by
    rw [h.fdes]
    exact List.mem_filterMap.mpr ⟨.fde fde, mem_of_mem_fdes_addAll hfde, rfl⟩

/-- What has no line has no entry. -/
theorem IsToldBy.not_mem (h : index.IsToldBy lines) {m : Mark}
    (hm : ∀ n ∈ lines, n.offset < m.offset) :
    m.offset ∉ index.cies.keys ∧ ∀ fde ∈ index.fdes.values, fde.offset ≠ m.offset := by
  constructor
  · rw [h.cies]
    intro hmem
    obtain ⟨n, hn, hoffset⟩ := List.mem_filterMap.mp hmem
    exact (hm n hn).ne (Mark.offset_of_cieOffset? hoffset)
  · intro fde hfde heq
    obtain ⟨n, hn, hoffset⟩ := List.mem_filterMap.mp (h.fdes fde hfde)
    exact (hm n hn).ne ((Mark.offset_of_fdeOffset? hoffset).trans heq)

/-! ## Passes -/

/-- How the lines of a pass go with the index that it leaves, for each way that it can end. -/
inductive Narrates (context : FrameContext) (bytes : List UInt8) (index : FrameIndex) :
    List Mark → Except Error Unit → Prop where
  /-- Each piece has a line. The section ends behind them, or what follows is no piece. -/
  | all : index.IsToldBy
        ((Layout.ofSection context.kind bytes).pieces.filterMap (Piece.mark? context bytes)) →
      Narrates context bytes index
        ((Layout.ofSection context.kind bytes).pieces.filterMap (Piece.mark? context bytes))
        (Layout.ofSection context.kind bytes).ending
  /-- The identifier of a record is cut off. The pieces before it have lines. -/
  | cutOff {front back : List Piece} {p : Piece} {e : Error} :
      (Layout.ofSection context.kind bytes).pieces = front ++ p :: back → ¬p.isEmpty →
      p.identifier bytes = .error e →
      index.IsToldBy (front.filterMap (Piece.mark? context bytes)) →
      Narrates context bytes index (front.filterMap (Piece.mark? context bytes)) (.error e)
  /-- A record fails behind its identifier. It has a line, which is the last one, and no entry. -/
  | failed {front back : List Piece} {p : Piece} {m : Mark} {e : Error} :
      (Layout.ofSection context.kind bytes).pieces = front ++ p :: back → ¬p.isEmpty →
      p.mark? context bytes = some m → (p.record bytes).outcome context index = .error e →
      index.IsToldBy (front.filterMap (Piece.mark? context bytes)) →
      m.offset ∉ index.cies.keys → (∀ fde ∈ index.fdes.values, fde.offset ≠ m.offset) →
      Narrates context bytes index (front.filterMap (Piece.mark? context bytes) ++ [m]) (.error e)

/-- The marks up to a record that fails are those of the pieces up to it. -/
theorem marks_of_error (heq : ps = front ++ p :: back) (hempty : ¬p.isEmpty)
    (hfront : decodePieces context bytes front index = (.ok (), grown))
    (hr : (p.record bytes).outcome context grown = .error e) :
    Event.marks (narratePieces context bytes ps index) =
      front.filterMap (Piece.mark? context bytes) ++ (p.mark? context bytes).toList := by
  rw [heq, narratePieces_append hfront, narratePieces_of_error hempty hr, Event.marks_append,
    (told_of_decodePieces hfront).1, RawRecord.marks_decode, Piece.mark?_of_not_isEmpty hempty]

/-- A pass that ends at a record. -/
theorem narrates_of_error
    (heq : (Layout.ofSection context.kind bytes).pieces = front ++ p :: back)
    (hempty : ¬p.isEmpty)
    (hfront : decodePieces context bytes front (empty context.kind) = (.ok (), grown))
    (hr : (p.record bytes).outcome context grown = .error e)
    (hlines : ((front.filterMap (Piece.mark? context bytes) ++
      (p.mark? context bytes).toList).map Mark.offset).Pairwise (· < ·)) :
    Narrates context bytes grown
      (front.filterMap (Piece.mark? context bytes) ++ (p.mark? context bytes).toList)
      (.error e) := by
  rw [List.map_append, List.pairwise_append] at hlines
  obtain ⟨hbefore, -, hlast⟩ := hlines
  obtain ⟨-, es, rfl, htold⟩ := told_of_decodePieces hfront
  have hindex := isToldBy_addAll context.kind htold hbefore
  rcases RawRecord.outcome_eq_error_iff.mp hr with hid | ⟨id, s, hid, -⟩
  · -- No identifier, no line.
    have hmark : p.mark? context bytes = none := by
      rw [Piece.mark?_of_not_isEmpty hempty, RawRecord.mark?, hid]
    rw [hmark, Option.toList_none, List.append_nil]
    exact .cutOff heq hempty (Piece.identifier_eq_error hid) hindex
  · have hmark : p.mark? context bytes =
        some (.record p.offset id (id = context.kind.cieId)) := by
      rw [Piece.mark?_of_not_isEmpty hempty, RawRecord.mark?, hid]
      rfl
    rw [hmark] at hlast ⊢
    obtain ⟨hcie, hfde⟩ := hindex.not_mem fun m hm ↦
      hlast m.offset (List.mem_map_of_mem hm) _ (List.mem_singleton_self _)
    exact .failed heq hempty hmark hr hindex hcie hfde

/-- **The lines of a pass ascend, and go with the index that it leaves.** -/
theorem narrates_decodeInto (context : FrameContext) (bytes : List UInt8) :
    let pass := (empty context.kind).decodeInto context bytes
    ((Event.marks pass.events).map Mark.offset).Pairwise (· < ·) ∧
      Narrates context bytes pass.value.2 (Event.marks pass.events) pass.value.1 := by
  obtain ⟨stop, htiles, -, -⟩ := Layout.tiles_ofSection context.kind bytes
  dsimp only
  rw [events_decodeInto, value_decodeInto, decodeLayout]
  cases h : decodePieces context bytes (Layout.ofSection context.kind bytes).pieces
      (empty context.kind) with
  | mk ended final =>
    cases ended with
    | ok _ =>
      obtain ⟨hmarks, es, rfl, htold⟩ := told_of_decodePieces h
      have hlines := pairwise_offsets context bytes htiles
      rw [hmarks]
      exact ⟨hlines, .all (isToldBy_addAll context.kind htold hlines)⟩
    | error e =>
      obtain ⟨front, p, back, heq, hempty, hfront, hr⟩ := exists_of_decodePieces_error h
      rw [heq, List.append_cons] at htiles
      obtain ⟨_, hmet, -⟩ := htiles.of_append
      have hlines := pairwise_offsets context bytes hmet
      have hlast : [p].filterMap (Piece.mark? context bytes) = (p.mark? context bytes).toList := by
        cases hmark : p.mark? context bytes <;> simp [hmark]
      rw [List.filterMap_append, hlast] at hlines
      rw [marks_of_error heq hempty hfront hr]
      exact ⟨hlines, narrates_of_error heq hempty hfront hr hlines⟩

/-- A pass that comes to its end has a line for each of its entries, and tells the start of each of
its FDEs. -/
theorem exists_told_of_ok {final : FrameIndex}
    (h : ((empty context.kind).decodeInto context bytes).value = (.ok (), final)) :
    ∃ es, final = (empty context.kind).addAll es ∧
      AreTold es (Event.marks ((empty context.kind).decodeInto context bytes).events)
        (Event.starts ((empty context.kind).decodeInto context bytes).events) := by
  rw [value_decodeInto, decodeLayout] at h
  rw [events_decodeInto]
  cases hpieces : decodePieces context bytes (Layout.ofSection context.kind bytes).pieces
      (empty context.kind) with
  | mk ended grown =>
    rw [hpieces] at h
    cases ended with
    | ok _ =>
      obtain ⟨-, rfl⟩ := Prod.mk.inj h
      obtain ⟨hmarks, es, hgrown, htold⟩ := told_of_decodePieces hpieces
      rw [hmarks]
      exact ⟨es, hgrown, htold⟩
    | error e => cases h

/-- **What a summary counts**: the CIEs are as many as their lines, and the FDEs as many as there
are different starts, which are not more than the lines of FDEs. -/
theorem sizes_of_ok (context : FrameContext) (bytes : List UInt8) {final : FrameIndex}
    (h : ((empty context.kind).decodeInto context bytes).value = (.ok (), final)) :
    let log := ((empty context.kind).decodeInto context bytes).events
    final.cies.size = ((Event.marks log).filterMap Mark.cieOffset?).length ∧
      final.fdes.size = (Event.starts log).dedup.length ∧
      (Event.starts log).dedup.length ≤
        ((Event.marks log).filterMap Mark.fdeOffset?).length := by
  obtain ⟨es, rfl, htold⟩ := exists_told_of_ok h
  have hlines := (narrates_decodeInto context bytes).1
  have hcies := (isToldBy_addAll context.kind htold hlines).cies
  refine ⟨?cies, ?fdes, ?most⟩
  case cies =>
    rw [← hcies, SortedMap.keys, List.length_map, SortedMap.length_entries]
  case fdes => rw [htold.starts, size_fdes_addAll]
  case most =>
    calc (Event.starts _).dedup.length
        ≤ (Event.starts _).length := (List.dedup_sublist _).length_le
      _ = (es.filterMap start?).length := by rw [htold.starts]
      _ = _ := by rw [length_filterMap_start?, htold.fdes]

end FrameIndex

/-! ## Requests -/

namespace Task

variable {σ μ α β : Type} {x : Task σ α} {f : α → Task σ β} {s t : σ} {a : α}

theorem events_bind_of_ok (h : x.ends s = (.ok a, t)) :
    ((x >>= f).runFrom s).events = (x.runFrom s).events ++ ((f a).runFrom t).events := by
  change (x.runFrom s).events ++ ((ExceptT.bindCont f (x.ends s).1).run (x.ends s).2).events = _
  rw [h]
  rfl

theorem events_ofTold (told : Told α) (s : σ) :
    ((ofTold told : Task σ α).runFrom s).events = told.events := by
  change (told.events ++ []) ++ [] = _
  rw [List.append_nil, List.append_nil]

theorem events_onSecond (x : Task σ α) (s : μ × σ) :
    ((x.onSecond : Task (μ × σ) α).runFrom s).events = (x.runFrom s.2).events := List.append_nil _

end Task

namespace Image

variable {σ : Type} {image : Image σ} {kind : FrameSection} {found : Section} {bytes : List UInt8}
  {s t : FrameMemo × σ} {index : FrameIndex} {frames : DecodedFrames}

theorem events_decodeFrames_of_ok (s : FrameMemo × σ)
    (h : image.freshDecode kind found bytes = (.ok (), index)) :
    ((image.decodeFrames kind found bytes).runFrom s).events =
      (image.freshPass kind found bytes).events ++
        [.decoded kind index.cies.size index.fdes.size] := by
  rw [decodeFrames, Task.events_bind_of_ok (Task.ends_ofTold _ s), Task.events_ofTold,
    decodeInto_frameContext, ← freshDecode, h]
  rfl

/-- **A request that decodes frames to their end** has read the section, told the pass over it, and
told how many entries it left. -/
theorem events_readFrames_of_ok (hunsettled : ¬IsSettled (s.1.state? kind))
    (h : (image.readFrames kind).ends s = (.ok frames, t)) :
    ∃ found bytes final, image.section? kind.name = some found ∧
      ((image.medium.readRange found.size found.offset).ends s.2).1 = .ok bytes ∧
      image.freshDecode kind found bytes = (.ok (), final) ∧
      frames.index = final.completed ∧
      ((image.readFrames kind).runFrom s).events =
        ((image.medium.readRange found.size found.offset).runFrom s.2).events ++
          (image.freshPass kind found bytes).events ++
          [.decoded kind final.cies.size final.fdes.size] := by
  rw [ends_readFrames_of_not_settled hunsettled] at h
  rw [runFrom_readFrames_of_not_settled hunsettled]
  cases hfound : image.section? kind.name with
  | none =>
    rw [hfound] at h
    cases h
  | some found =>
    rw [hfound] at h
    dsimp only at h ⊢
    have hstep := Task.ends_onSecond (image.medium.readRange found.size found.offset) s
    cases hread : ((image.medium.readRange found.size found.offset).ends s.2).1 with
    | error e =>
      rw [hread] at hstep
      rw [Task.ends_bind_of_error hstep] at h
      cases h
    | ok bytes =>
      rw [hread] at hstep
      rw [Task.ends_bind_of_ok hstep, ends_decodeFrames] at h
      cases hpass : image.freshDecode kind found bytes with
      | mk ended final =>
        rw [hpass] at h
        cases ended with
        | error e => cases h
        | ok _ =>
          obtain ⟨hframes, -⟩ := Prod.mk.inj h
          injection hframes with hframes
          refine ⟨found, bytes, final, rfl, hread, hpass, by rw [← hframes], ?_⟩
          rw [Task.events_bind_of_ok hstep, Task.events_onSecond,
            events_decodeFrames_of_ok _ hpass, List.append_assoc]

end Image

/-! ## The narration of frames -/

/-- At the lowest level everything is heard. -/
theorem Event.heard_trace (events : List Event) : heard .trace events = events := by
  refine List.filter_eq_self.mpr fun e _ ↦ decide_eq_true ?_
  cases e.level <;> decide

open Event Line in
/-- **The narration is the decode.** In the log of a pass the lines with a bracket in front are
`<offset> zero terminator` for each length of zero and `<offset> cie_id <id> CIE` or `FDE` for each
record whose identifier was read. They ascend, and go with the index that the pass leaves: its CIEs
are those of the lines, and each FDE has a line; a record that fails behind its identifier has one
too, and no entry. The summary of a request that decodes frames to their end counts the lines of
CIEs and the different starts in the lines of ranges, which are not more than the lines of FDEs. -/
theorem narration_of_frames :
    (∀ (context : FrameContext) (bytes : List UInt8),
      let pass := (FrameIndex.empty context.kind).decodeInto context bytes
      let log := heard .trace pass.events
      beginning "<" (log.map Event.text) = (marks log).map Mark.text ∧
        ((marks log).map Mark.offset).Pairwise (· < ·) ∧
        FrameIndex.Narrates context bytes pass.value.2 (marks log) pass.value.1) ∧
    ∀ (σ : Type) (image : Image σ) (kind : FrameSection) (s t : FrameMemo × σ)
      (frames : DecodedFrames), ¬Image.IsSettled (s.1.state? kind) →
      (image.readFrames kind).ends s = (.ok frames, t) →
      ∃ found bytes summary, image.section? kind.name = some found ∧
        let read := (image.medium.readRange found.size found.offset).runFrom s.2
        let pass := image.freshPass kind found bytes
        let log := heard .trace pass.events
        let cieCount := ((marks log).filterMap Mark.cieOffset?).length
        let startCount := ((ranges log).map RangeTold.start).dedup.length
        read.value.1 = .ok bytes ∧
          pass.value.1 = .ok () ∧
          frames.index = { pass.value.2 with isComplete := true } ∧
          beginning "<" (log.map Event.text) = (marks log).map Mark.text ∧
          beginning "cie_offset " (log.map Event.text) = (ranges log).map RangeTold.text ∧
          ((image.readFrames kind).runFrom s).events = read.events ++ pass.events ++ [summary] ∧
          summary.level.name = "INFO" ∧
          summary.text =
            "Decoded " ++ kind.name ++ ": " ++ toString cieCount ++ " CIEs, " ++
              toString startCount ++ " FDEs" ∧
          startCount ≤ ((marks log).filterMap Mark.fdeOffset?).length := by
  simp only [heard_trace]
  constructor
  · intro context bytes
    obtain ⟨hascend, hnarrates⟩ := FrameIndex.narrates_decodeInto context bytes
    exact ⟨beginning_bracket _, hascend, hnarrates⟩
  · intro σ image kind s t frames hunsettled h
    obtain ⟨found, bytes, final, hfound, hread, hpass, hindex, hevents⟩ :=
      Image.events_readFrames_of_ok hunsettled h
    obtain ⟨hcies, hfdes, hmost⟩ := FrameIndex.sizes_of_ok _ bytes hpass
    rw [hcies, hfdes] at hevents
    refine ⟨found, bytes, _, hfound, hread, ?_, ?_, beginning_bracket _, beginning_cieOffset _,
      hevents, rfl, rfl, hmost⟩
    · rw [show (image.freshPass kind found bytes).value = _ from hpass]
    · rw [show (image.freshPass kind found bytes).value = _ from hpass, hindex]
      rfl

/-- A CIE and two FDEs behind it that have one start. -/
def sameStart : List UInt8 :=
  FrameIndex.plainCie .ehFrame ++ FrameIndex.fdeBehind ++ FrameIndex.fdeBehind.set 4 44

open Event Line in
/-- The FDE of a damaged section is told, and does not come to be an entry. Two FDEs with one start
have a line each, and count as one. -/
theorem narration_of_frames_sameStart :
    let damaged := (FrameIndex.empty .ehFrame).decodeInto ⟨.ehFrame, 0, 8⟩ FrameIndex.damaged
    let found : Section := ⟨".eh_frame", 1, 2, 0, 0, 64⟩
    let image : Image Unit :=
      ⟨"a.out", .ofBytes sameStart, ⟨.elf64, 2, 62, 0, 0, 0, 0, 64, 56, 0, 64, 1, 0⟩,
        SortedMap.empty.insert found.name found, []⟩
    let told := (image.readFrames .ehFrame).runFrom ({}, ())
    (beginning "<" ((heard .trace damaged.events).map Event.text) =
        ["<0> cie_id 0 CIE", "<d> cie_id 9 FDE"] ∧
      damaged.value.2.cies.keys = [0] ∧ damaged.value.2.fdes.keys = []) ∧
    beginning "<" (told.events.map Event.text) =
      ["<0> cie_id 0 CIE", "<10> cie_id 14 FDE", "<28> cie_id 2c FDE"] ∧
    beginning "cie_offset " (told.events.map Event.text) =
      ["cie_offset 0x0, proc range [0x4000 - 0x4020]",
        "cie_offset 0x0, proc range [0x4000 - 0x4020]"] ∧
    ∃ summary, told.events.getLast? = some summary ∧ summary.level.name = "INFO" ∧
      summary.text = "Decoded .eh_frame: 1 CIEs, 1 FDEs" := by
  intro damaged found image told
  have hlines := (narration_of_frames.1 ⟨.ehFrame, 0, 8⟩ FrameIndex.damaged).1
  have hok : told.value.1.map (fun _ ↦ ()) = .ok () := by decide +kernel
  obtain ⟨frames, hframes⟩ : ∃ frames, told.value.1 = .ok frames := by
    cases hends : told.value.1 with
    | error e => rw [hends] at hok; cases hok
    | ok frames => exact ⟨frames, rfl⟩
  obtain ⟨section', bytes, summary, hfound, hread, -, -, -, -, hevents, hlevel, htext, -⟩ :=
    narration_of_frames.2 Unit image .ehFrame ({}, ()) _ frames id (Prod.ext hframes rfl)
  -- There is one section and one read, so the lines are those of the bytes written out above.
  have hsection : image.section? ".eh_frame" = some found := by decide +kernel
  obtain rfl : found = section' := Option.some.inj (hsection.symm.trans hfound)
  have hserved : ((image.medium.readRange found.size found.offset).runFrom ()).value.1 =
      .ok sameStart := by decide +kernel
  obtain rfl : sameStart = bytes := Except.ok.inj (hserved.symm.trans hread)
  refine ⟨⟨hlines.trans ?_, ?_, ?_⟩, ?_, ?_, summary, ?_, hlevel, htext.trans ?_⟩
  · decide +kernel
  · decide +kernel
  · decide +kernel
  · decide +kernel
  · decide +kernel
  · exact (congrArg List.getLast? hevents).trans List.getLast?_concat
  · decide +kernel

end ElfUnwind
