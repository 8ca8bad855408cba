import ElfUnwind.Proofs.PathKeys
import ElfUnwind.Proofs.QuietTasks
import Mathlib.Data.List.Dedup
import Mathlib.Data.List.Induction

/-!
# A cache in use

While a cache is in use files are written, removed and made anew, and paths are asked for. What a
path came to at the first request for its key is what every later request for that key gets
(`CacheUse.get_memoizes`). The files have no say in it any more, nor have requests for other keys.

## Counting openings

A cache does not tell how often it opens a file. So it is run with an opening that puts every path
on record (`Image.openOnRecord`), which is the cache as it is in all other respects
(`CacheUse.get_eq`).
-/

namespace ElfUnwind

/-- Opens the image in the file of a path, and puts the path on record. -/
def Image.openOnRecord (path : String) : Task (List String × FileTree) (Image FileTree) :=
  fun s ↦ do
    let (outcome, t) ← Image.openFile path s.2
    return (outcome, (s.1 ++ [path], t))

/-- What is told of an opening that failed. -/
def notOpened? (path : String) : Except Error (Image FileTree) → List Event
  | .ok _ => []
  | .error cause => [.notOpened path cause]

/-! ## Keeping outcomes -/

namespace ImageCache

variable {c : ImageCache} {path path' : String} {image : Option (Image FileTree)} {place : Nat}
  {outcome : Except Error (Image FileTree)} {i : OpenImage}

/-- `get`, with images opened in another way. -/
def getWith {σ : Type} (opens : String → Task σ (Image FileTree)) (path : String) (c : ImageCache)
    (s : σ) : Told ((Option Nat × ImageCache) × σ) := do
  match c.outcome? path with
  | some outcome => return ((outcome, c), s)
  | none =>
    let (outcome, t) ← (opens path).runFrom s
    match outcome with
    | .ok image => return ((some c.images.length, c.keep path (some image)), t)
    | .error cause =>
      Told.tell (.notOpened path cause)
      return ((none, c.keep path none), t)

theorem getWith_openFile : getWith Image.openFile = get := rfl

/-- The cache keeps the outcome of opening for a path. -/
def Keeps (c : ImageCache) (path : String) : Except Error (Image FileTree) → Prop
  | .ok image => ∃ place, c.outcome? path = some (some place) ∧ c.image? place = some ⟨image, {}⟩
  | .error _ => c.outcome? path = some none

theorem Keeps.exists_outcome? (h : c.Keeps path outcome) :
    ∃ answer, c.outcome? path = some answer := by
  cases outcome with
  | error cause => exact ⟨none, h⟩
  | ok image =>
    obtain ⟨place, houtcome, -⟩ := h
    exact ⟨some place, houtcome⟩

theorem outcome?_congr (h : Path.key path' = Path.key path) :
    c.outcome? path' = c.outcome? path := by
  rw [outcome?, outcome?, h]

theorem outcomes_keep (c : ImageCache) (path : String) (image : Option (Image FileTree)) :
    (c.keep path image).outcomes =
      (Path.key path, image.map fun _ ↦ c.images.length) :: c.outcomes := by
  cases image <;> rfl

theorem outcome?_keep_self (h : Path.key path' = Path.key path) :
    (c.keep path image).outcome? path' = some (image.map fun _ ↦ c.images.length) := by
  rw [outcome?, outcomes_keep, h, List.lookup_cons_self]

theorem outcome?_keep_of_ne (h : Path.key path' ≠ Path.key path) :
    (c.keep path image).outcome? path' = c.outcome? path' := by
  rw [outcome?, outcomes_keep, List.lookup_cons, beq_false_of_ne h]
  rfl

/-- An image stays at its place. -/
theorem image?_keep (h : c.image? place = some i) : (c.keep path image).image? place = some i := by
  cases image with
  | none => exact h
  | some image =>
    obtain ⟨hlt, -⟩ := List.getElem?_eq_some_iff.mp h
    exact (List.getElem?_append_left hlt).trans h

theorem keeps_keep (h : Path.key path' = Path.key path) :
    (c.keep path outcome.toOption).Keeps path' outcome := by
  cases outcome with
  | error cause => exact outcome?_keep_self h
  | ok image => exact ⟨c.images.length, outcome?_keep_self h, List.getElem?_concat_length⟩

theorem Keeps.keep (hc : c.Keeps path' outcome) (h : Path.key path' ≠ Path.key path) :
    (c.keep path image).Keeps path' outcome := by
  cases outcome with
  | error cause => exact (outcome?_keep_of_ne h).trans hc
  | ok opened =>
    obtain ⟨place, houtcome, himage⟩ := hc
    exact ⟨place, (outcome?_keep_of_ne h).trans houtcome, image?_keep himage⟩

end ImageCache

/-! ## Runs -/

/-- What may become of files. -/
inductive FileChange where
  /-- A file is made or gets new contents. -/
  | write (path : String) (bytes : List UInt8)
  /-- A file or a directory is removed. -/
  | remove (path : String)
  /-- A directory is made. -/
  | makeDirectory (path : String)

/-- The files after a change. -/
def FileChange.apply (files : FileTree) : FileChange → FileTree
  | write path bytes => files.write path bytes
  | remove path => files.remove path
  | makeDirectory path => files.makeDirectory path

/-- What happens while a cache is in use. -/
inductive CacheStep where
  /-- The files change. -/
  | change (c : FileChange)
  /-- The image of a path is asked for. -/
  | get (path : String)

/-- The files after a step. -/
def CacheStep.filesAfter (files : FileTree) : CacheStep → FileTree
  | change c => c.apply files
  | get _ => files

/-- A request for a path, and the files at that moment. -/
structure CacheRequest where
  /-- The path. -/
  path : String
  /-- The files. -/
  files : FileTree

namespace CacheRequest

/-- What the path is known by. -/
def key (r : CacheRequest) : List String := Path.key r.path

/-- What opening the path comes to at that moment. -/
def outcome (r : CacheRequest) : Except Error (Image FileTree) :=
  ((Image.openFile r.path).ends r.files).1

/-- The requests among steps, with the files as the steps before have left them. -/
def ofSteps (files : FileTree) : List CacheStep → List CacheRequest
  | [] => []
  | .change c :: steps => ofSteps (c.apply files) steps
  | .get path :: steps => ⟨path, files⟩ :: ofSteps files steps

/-- The first request for the key of a path. -/
def first? (path : String) (rs : List CacheRequest) : Option CacheRequest :=
  rs.find? fun r ↦ r.key = Path.key path

theorem ofSteps_append (files : FileTree) (steps more : List CacheStep) :
    ofSteps files (steps ++ more) =
      ofSteps files steps ++ ofSteps (steps.foldl CacheStep.filesAfter files) more := by
  induction steps generalizing files with
  | nil => rfl
  | cons s steps ih =>
    cases s with
    | change c => exact ih _
    | get path => exact congrArg (⟨path, files⟩ :: ·) (ih files)

variable {path path' : String} {files : FileTree} {rs : List CacheRequest} {r : CacheRequest}

theorem first?_congr (h : Path.key path' = Path.key path) : first? path' rs = first? path rs := by
  rw [first?, first?, h]

theorem first?_eq_none_iff : first? path rs = none ↔ Path.key path ∉ rs.map key := by
  rw [first?, List.find?_eq_none, List.mem_map]
  simp

theorem mem_of_first? (h : first? path rs = some r) : Path.key path ∈ rs.map key := by
  by_contra hnot
  rw [first?_eq_none_iff.mpr hnot] at h
  cases h

theorem exists_first? (h : Path.key path ∈ rs.map key) : ∃ r, first? path rs = some r :=
  Option.ne_none_iff_exists'.mp fun hnone ↦ first?_eq_none_iff.mp hnone h

theorem first?_concat_self (h : Path.key path' = Path.key path) :
    first? path' (rs ++ [⟨path, files⟩]) = (first? path rs).or (some ⟨path, files⟩) := by
  have hself : first? path [⟨path, files⟩] = some ⟨path, files⟩ :=
    List.find?_cons_of_pos (decide_eq_true rfl)
  rw [first?_congr h, first?, List.find?_append, ← first?, ← first?, hself]

theorem first?_concat_of_ne (h : Path.key path' ≠ Path.key path) :
    first? path' (rs ++ [⟨path, files⟩]) = first? path' rs := by
  have hother : first? path' [⟨path, files⟩] = none :=
    List.find?_cons_of_neg (mt of_decide_eq_true h.symm)
  rw [first?, List.find?_append, ← first?, ← first?, hother, Option.or_none]

/-- Only the first request counts. -/
theorem first?_concat_of_some (h : first? path rs = some r) (files : FileTree) :
    first? path' (rs ++ [⟨path, files⟩]) = first? path' rs := by
  by_cases hkey : Path.key path' = Path.key path
  · rw [first?_concat_self hkey, first?_congr hkey, h, Option.some_or]
  · rw [first?_concat_of_ne hkey]

end CacheRequest

/-- A cache in use. -/
structure CacheUse where
  /-- The cache. -/
  cache : ImageCache
  /-- The paths whose files were opened, or tried to, in their order. -/
  opened : List String
  /-- The files. -/
  files : FileTree

namespace CacheUse

/-- Nothing asked for yet. -/
def start (files : FileTree) : CacheUse := ⟨.empty, [], files⟩

/-- Asks for the image of a path. -/
def get (path : String) (u : CacheUse) : Told (Option Nat × CacheUse) := do
  let ((answer, cache), (opened, files)) ←
    ImageCache.getWith Image.openOnRecord path u.cache (u.opened, u.files)
  return (answer, ⟨cache, opened, files⟩)

/-- What a step leaves. -/
def step (u : CacheUse) : CacheStep → CacheUse
  | .change c => { u with files := c.apply u.files }
  | .get path => (u.get path).value.2

/-- What steps leave. -/
def after (u : CacheUse) (steps : List CacheStep) : CacheUse := steps.foldl step u

theorem after_append (u : CacheUse) (steps more : List CacheStep) :
    u.after (steps ++ more) = (u.after steps).after more := List.foldl_append

variable {u : CacheUse} {path path' : String} {answer : Option Nat} {rs : List CacheRequest}

/-! ## What a request does -/

theorem runFrom_openOnRecord (path : String) (opened : List String) (files : FileTree) :
    (Image.openOnRecord path).runFrom (opened, files) =
      (fun p ↦ (p.1, (opened ++ [path], p.2))) <$> (Image.openFile path).runFrom files := rfl

/-- The record is all that the cache in use adds to the cache. -/
theorem get_eq (path : String) (u : CacheUse) :
    ImageCache.get path u.cache u.files =
      (fun p : Option Nat × CacheUse ↦ ((p.1, p.2.cache), p.2.files)) <$> u.get path := by
  rw [← ImageCache.getWith_openFile, get, ImageCache.getWith, ImageCache.getWith]
  cases u.cache.outcome? path with
  | some outcome => rfl
  | none =>
    rw [runFrom_openOnRecord]
    generalize (Image.openFile path).runFrom u.files = opening
    obtain ⟨events, outcome, files⟩ := opening
    cases outcome with
    | error cause => exact Told.ext (by simp) rfl
    | ok image => exact Told.ext (by simp) rfl

theorem get_of_some (h : u.cache.outcome? path = some answer) :
    u.get path = pure (answer, u) := by
  rw [get, ImageCache.getWith, h]
  rfl

/-- **A first request** opens the file of its path, and keeps what that comes to. A failure is told
as a warning. -/
theorem get_of_none (h : u.cache.outcome? path = none) :
    (u.get path).value =
        (((Image.openFile path).ends u.files).1.toOption.map fun _ ↦ u.cache.images.length,
          ⟨u.cache.keep path ((Image.openFile path).ends u.files).1.toOption,
            u.opened ++ [path], u.files⟩) ∧
      (u.get path).events.filter (·.level = .warn) =
        notOpened? path ((Image.openFile path).ends u.files).1 := by
  have hstate := (Image.quiet_openFile path).state u.files
  have htold : ((Image.openFile path).runFrom u.files).events.filter (·.level = .warn) = [] :=
    List.filter_eq_nil_iff.mpr fun event he ↦
      mt decide_eq_true_iff.mp ((Image.quiet_openFile path).told u.files event he)
  rw [get, ImageCache.getWith, h]
  simp only [runFrom_openOnRecord]
  rw [Task.ends] at hstate ⊢
  generalize (Image.openFile path).runFrom u.files = opening at hstate htold ⊢
  obtain ⟨events, outcome, files⟩ := opening
  dsimp only at hstate htold
  subst hstate
  cases outcome with
  | error cause =>
    have hwarn : (Event.notOpened path cause).level = .warn := rfl
    exact ⟨rfl, by simp [htold, hwarn, notOpened?]⟩
  | ok image => exact ⟨rfl, by simp [htold, notOpened?]⟩

/-! ## What a cache keeps -/

/-- The cache keeps for every path what the first request for its key came to, and nothing for other
paths. It has opened one path for each key. -/
structure Kept (u : CacheUse) (rs : List CacheRequest) : Prop where
  /-- A path asked for has the outcome of the first request. -/
  first : ∀ path r, CacheRequest.first? path rs = some r → u.cache.Keeps path r.outcome
  /-- A path not asked for has none. -/
  unasked : ∀ path, CacheRequest.first? path rs = none → u.cache.outcome? path = none
  /-- The keys are those of the paths that were opened. -/
  keys : u.cache.outcomes.map Prod.fst = (u.opened.map Path.key).reverse
  /-- No key was opened twice. -/
  nodup : (u.opened.map Path.key).Nodup
  /-- The keys that were opened are those that were asked for. -/
  asked : ∀ key, key ∈ u.opened.map Path.key ↔ key ∈ rs.map CacheRequest.key

theorem kept_start (files : FileTree) : Kept (start files) [] where
  first _ _ h := by cases h
  unasked _ _ := rfl
  keys := rfl
  nodup := List.nodup_nil
  asked _ := Iff.rfl

theorem Kept.get_of_some (h : Kept u rs) {r : CacheRequest}
    (hr : CacheRequest.first? path rs = some r) : Kept u (rs ++ [⟨path, u.files⟩]) where
  first path' r' h' := by
    rw [CacheRequest.first?_concat_of_some hr] at h'
    exact h.first path' r' h'
  unasked path' h' := by
    rw [CacheRequest.first?_concat_of_some hr] at h'
    exact h.unasked path' h'
  keys := h.keys
  nodup := h.nodup
  asked key := by
    have hmem := CacheRequest.mem_of_first? hr
    rw [h.asked, List.map_append, List.mem_append]
    refine ⟨Or.inl, ?_⟩
    rintro (hold | hnew)
    · exact hold
    · rwa [List.mem_singleton.mp hnew]

theorem Kept.get_of_none (h : Kept u rs) (hr : CacheRequest.first? path rs = none) :
    Kept ⟨u.cache.keep path (CacheRequest.outcome ⟨path, u.files⟩).toOption, u.opened ++ [path],
      u.files⟩ (rs ++ [⟨path, u.files⟩]) where
  first path' r h' := by
    by_cases hkey : Path.key path' = Path.key path
    · rw [CacheRequest.first?_concat_self hkey, hr, Option.none_or] at h'
      cases h'
      exact ImageCache.keeps_keep hkey
    · rw [CacheRequest.first?_concat_of_ne hkey] at h'
      exact (h.first path' r h').keep hkey
  unasked path' h' := by
    by_cases hkey : Path.key path' = Path.key path
    · rw [CacheRequest.first?_concat_self hkey, hr] at h'
      cases h'
    · rw [CacheRequest.first?_concat_of_ne hkey] at h'
      exact (ImageCache.outcome?_keep_of_ne hkey).trans (h.unasked path' h')
  keys := by
    rw [ImageCache.outcomes_keep, List.map_cons, h.keys, List.map_append, List.reverse_append]
    rfl
  nodup := by
    rw [List.map_append]
    refine List.nodup_append.mpr ⟨h.nodup, List.nodup_singleton _, ?_⟩
    rintro key hkey _ hnew rfl
    rw [List.mem_singleton.mp hnew, h.asked] at hkey
    exact CacheRequest.first?_eq_none_iff.mp hr hkey
  asked key := by
    rw [List.map_append, List.map_append, List.mem_append, List.mem_append, h.asked]
    rfl

theorem Kept.get (h : Kept u rs) (path : String) :
    Kept (u.get path).value.2 (rs ++ [⟨path, u.files⟩]) ∧
      (u.get path).value.2.files = u.files := by
  cases hr : CacheRequest.first? path rs with
  | some r =>
    obtain ⟨answer, houtcome⟩ := (h.first path r hr).exists_outcome?
    rw [CacheUse.get_of_some houtcome]
    exact ⟨h.get_of_some hr, rfl⟩
  | none =>
    rw [(CacheUse.get_of_none (h.unasked path hr)).1]
    exact ⟨h.get_of_none hr, rfl⟩

/-- The size is the number of different keys. -/
theorem Kept.size_eq (h : Kept u rs) :
    u.cache.size = (rs.map CacheRequest.key).dedup.length := by
  have hperm : (u.opened.map Path.key).Perm (rs.map CacheRequest.key).dedup :=
    (List.perm_ext_iff_of_nodup h.nodup (List.nodup_dedup _)).mpr fun key ↦
      (h.asked key).trans List.mem_dedup.symm
  have hlength := congrArg List.length h.keys
  rw [List.length_map, List.length_reverse] at hlength
  exact hlength.trans hperm.length_eq

theorem Kept.withFiles (h : Kept u rs) (files : FileTree) : Kept { u with files } rs :=
  ⟨h.first, h.unasked, h.keys, h.nodup, h.asked⟩

/-- **A cache in use keeps the outcome of the first request for each key**, and leaves the files as
the other steps have made them. -/
theorem kept_after (files : FileTree) (steps : List CacheStep) :
    Kept ((start files).after steps) (CacheRequest.ofSteps files steps) ∧
      ((start files).after steps).files = steps.foldl CacheStep.filesAfter files := by
  induction steps using List.reverseRecOn with
  | nil => exact ⟨kept_start files, rfl⟩
  | append_singleton steps s ih =>
    obtain ⟨hkept, hfiles⟩ := ih
    rw [after_append, CacheRequest.ofSteps_append, List.foldl_append, ← hfiles]
    cases s with
    | change c =>
      rw [CacheRequest.ofSteps, CacheRequest.ofSteps, List.append_nil]
      exact ⟨hkept.withFiles _, rfl⟩
    | get path => exact hkept.get path

/-! ## What stays -/

/-- Outcomes are kept, and images stay at their places. -/
structure Extends (u v : CacheUse) : Prop where
  /-- Outcomes are kept. -/
  outcome : ∀ {path answer}, u.cache.outcome? path = some answer →
    v.cache.outcome? path = some answer
  /-- Images stay at their places. -/
  image : ∀ {place i}, u.cache.image? place = some i → v.cache.image? place = some i

theorem extends_get (u : CacheUse) (path : String) : u.Extends (u.get path).value.2 := by
  cases h : u.cache.outcome? path with
  | some answer =>
    rw [get_of_some h]
    exact ⟨id, id⟩
  | none =>
    rw [(get_of_none h).1]
    refine ⟨fun {path' answer} h' ↦ ?_, ImageCache.image?_keep⟩
    refine (ImageCache.outcome?_keep_of_ne fun hkey ↦ ?_).trans h'
    rw [ImageCache.outcome?_congr hkey, h] at h'
    cases h'

theorem extends_after (u : CacheUse) (steps : List CacheStep) : u.Extends (u.after steps) := by
  induction steps generalizing u with
  | nil => exact ⟨id, id⟩
  | cons s steps ih =>
    have hstep : u.Extends (u.step s) := by
      cases s with
      | change c => exact ⟨id, id⟩
      | get path => exact extends_get u path
    have hrest := ih (u.step s)
    exact ⟨fun h ↦ hrest.outcome (hstep.outcome h), fun h ↦ hrest.image (hstep.image h)⟩

/-- A request leaves its answer as the outcome of its path. -/
theorem outcome?_get (u : CacheUse) (path : String) :
    (u.get path).value.2.cache.outcome? path = some (u.get path).value.1 := by
  cases h : u.cache.outcome? path with
  | some answer =>
    rw [get_of_some h]
    exact h
  | none =>
    rw [(get_of_none h).1]
    exact ImageCache.outcome?_keep_self rfl

/-- **A cache remembers the first outcome for good.** A request gets what opening came to at the
first request for its key, and so does every later one, whatever happens in between: it opens
nothing, tells nothing and changes nothing. A failure is told once, as a warning. One path is opened
for each key, and the size of the cache is the number of keys asked for. -/
theorem get_memoizes (files : FileTree) (steps : List CacheStep) (path : String) :
    let before := (start files).after steps
    let call := before.get path
    let asked := (CacheRequest.ofSteps files steps).map CacheRequest.key
    ImageCache.get path before.cache before.files =
        (fun p : Option Nat × CacheUse ↦ ((p.1, p.2.cache), p.2.files)) <$> call ∧
      call.value.2.files = steps.foldl CacheStep.filesAfter files ∧
      (∃ first, CacheRequest.first? path
          (CacheRequest.ofSteps files (steps ++ [.get path])) = some first ∧
        match first.outcome with
        | .ok image => ∃ place, call.value.1 = some place ∧
            ∀ more, (call.value.2.after more).cache.image? place = some ⟨image, {}⟩
        | .error _ => call.value.1 = none) ∧
      (∀ more path', Path.key path' = Path.key path →
        (call.value.2.after more).get path' = pure (call.value.1, call.value.2.after more)) ∧
      (Path.key path ∈ asked → call = pure (call.value.1, before)) ∧
      (Path.key path ∉ asked → call.value.2.opened = before.opened ++ [path] ∧
        call.events.filter (·.level = .warn) =
          notOpened? path ((Image.openFile path).ends before.files).1) ∧
      (before.opened.map Path.key).Nodup ∧
      (∀ key, key ∈ before.opened.map Path.key ↔ key ∈ asked) ∧
      before.cache.size = asked.dedup.length ∧
      (before.cache.isEmpty = true ↔ asked = []) ∧
      Path.Componentwise Path.key := by
  intro before call asked
  obtain ⟨hkept, -⟩ := kept_after files steps
  obtain ⟨hcall, hfiles⟩ := kept_after files (steps ++ [CacheStep.get path])
  rw [after_append] at hcall hfiles
  rw [List.foldl_append] at hfiles
  have hlater (more : List CacheStep) := extends_after call.value.2 more
  refine ⟨get_eq path before, hfiles, ?first, ?later, ?again, ?opened, hkept.nodup, hkept.asked,
    hkept.size_eq, ?isEmpty, Path.componentwise_key⟩
  case first =>
    have hasked : Path.key path ∈ (CacheRequest.ofSteps files
        (steps ++ [CacheStep.get path])).map CacheRequest.key := by
      rw [CacheRequest.ofSteps_append, List.map_append]
      exact List.mem_append_right _ (List.mem_singleton_self _)
    obtain ⟨first, hfirst⟩ := CacheRequest.exists_first? hasked
    have hkeeps := hcall.first path first hfirst
    have hanswer : call.value.2.cache.outcome? path = some call.value.1 := outcome?_get before path
    refine ⟨first, hfirst, ?_⟩
    cases houtcome : first.outcome with
    | error cause =>
      rw [houtcome] at hkeeps
      exact Option.some.inj (hanswer.symm.trans hkeeps)
    | ok image =>
      rw [houtcome] at hkeeps
      obtain ⟨place, hplace, himage⟩ := hkeeps
      exact ⟨place, Option.some.inj (hanswer.symm.trans hplace),
        fun more ↦ (hlater more).image himage⟩
  case later =>
    intro more path' hkey
    refine get_of_some ((hlater more).outcome ?_)
    rw [ImageCache.outcome?_congr hkey]
    exact outcome?_get before path
  case again =>
    intro hasked
    obtain ⟨r, hr⟩ := CacheRequest.exists_first? hasked
    obtain ⟨answer, houtcome⟩ := (hkept.first path r hr).exists_outcome?
    have hcall : call = pure (answer, before) := get_of_some houtcome
    rw [hcall]
    rfl
  case opened =>
    intro hnew
    obtain ⟨hvalue, hwarnings⟩ := get_of_none
      (hkept.unasked path (CacheRequest.first?_eq_none_iff.mpr hnew))
    exact ⟨by rw [hvalue], hwarnings⟩
  case isEmpty =>
    rw [ImageCache.isEmpty, decide_eq_true_iff, hkept.size_eq, List.length_eq_zero_iff,
      List.dedup_eq_nil]

end CacheUse

end ElfUnwind
