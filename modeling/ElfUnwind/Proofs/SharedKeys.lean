import ElfUnwind.Proofs.CachedImages
import ElfUnwind.Proofs.Opening

/-!
# Spellings that share a key

A cache is asked by paths, but keeps outcomes by their keys. A path that is spelled in a new way
gets an image of its own exactly if no path before had its key (`CacheUse.get_firstOfKey`).
Otherwise it gets what the other spelling came to, even if opening it by itself would come to
something else (`CacheUse.get_otherSpelling`).
-/

namespace ElfUnwind

namespace CacheUse

/-- The answers to the requests among steps, each with the path that was asked for. -/
def answers (u : CacheUse) : List CacheStep → List (String × Option Nat)
  | [] => []
  | .change c :: steps => (u.step (.change c)).answers steps
  | .get path :: steps => (path, (u.get path).value.1) :: (u.step (.get path)).answers steps

/-- The path that the image at a place was first returned for. -/
def firstPath? (place : Nat) (answers : List (String × Option Nat)) : Option String :=
  (answers.find? fun a ↦ a.2 = some place).map Prod.fst

variable {u : CacheUse} {path path' : String} {answer : Option Nat} {place : Nat}
  {steps : List CacheStep} {files : FileTree}

/-! ## Answers that were given -/

theorem answers_append (u : CacheUse) (steps more : List CacheStep) :
    u.answers (steps ++ more) = u.answers steps ++ (u.after steps).answers more := by
  induction steps generalizing u with
  | nil => rfl
  | cons s steps ih =>
    cases s with
    | change c => exact ih _
    | get path => exact congrArg _ (ih _)

/-- What is answered depends on the files, what is asked does not. -/
theorem map_fst_answers (u : CacheUse) (files : FileTree) (steps : List CacheStep) :
    (u.answers steps).map Prod.fst = (CacheRequest.ofSteps files steps).map CacheRequest.path := by
  induction steps generalizing u files with
  | nil => rfl
  | cons s steps ih =>
    cases s with
    | change c => exact ih _ _
    | get path => exact congrArg _ (ih _ _)

/-- An answer stays the outcome of its path. -/
theorem outcome?_of_mem_answers (h : (path, answer) ∈ u.answers steps) :
    (u.after steps).cache.outcome? path = some answer := by
  induction steps generalizing u with
  | nil => exact absurd h List.not_mem_nil
  | cons s steps ih =>
    cases s with
    | change c => exact ih h
    | get asked =>
      obtain heq | hlater := List.mem_cons.mp h
      · obtain ⟨rfl, rfl⟩ := Prod.mk.inj heq
        exact (extends_after _ steps).outcome (outcome?_get u path)
      · exact ih hlater

/-- Paths with one key have one answer. -/
theorem get_of_mem_answers (h : (path', answer) ∈ u.answers steps)
    (hkey : Path.key path' = Path.key path) :
    (u.after steps).get path = pure (answer, u.after steps) :=
  get_of_some ((ImageCache.outcome?_congr hkey).symm.trans (outcome?_of_mem_answers h))

theorem mem_asked_of_mem_answers (h : (path, answer) ∈ (start files).answers steps) :
    Path.key path ∈ (CacheRequest.ofSteps files steps).map CacheRequest.key := by
  have hpath := List.mem_map_of_mem (f := Prod.fst) h
  rw [map_fst_answers _ files] at hpath
  obtain ⟨r, hr, rfl⟩ := List.mem_map.mp hpath
  exact List.mem_map_of_mem hr

/-- An image that was returned is at its place. -/
theorem place_lt_of_mem_answers (h : (path, some place) ∈ (start files).answers steps) :
    place < ((start files).after steps).cache.images.length := by
  obtain ⟨r, hr⟩ := CacheRequest.exists_first? (mem_asked_of_mem_answers h)
  have hkeeps := (kept_after files steps).1.first path r hr
  have houtcome := outcome?_of_mem_answers h
  cases hopened : r.outcome with
  | error cause =>
    rw [hopened] at hkeeps
    exact nomatch houtcome.symm.trans hkeeps
  | ok image =>
    rw [hopened] at hkeeps
    obtain ⟨place', houtcome', himage⟩ := hkeeps
    cases houtcome.symm.trans houtcome'
    exact (List.getElem?_eq_some_iff.mp himage).1

theorem exists_mem_answers (h : Path.key path ∈
    (CacheRequest.ofSteps files steps).map CacheRequest.key) :
    ∃ path' answer, (path', answer) ∈ (start files).answers steps ∧
      Path.key path' = Path.key path := by
  obtain ⟨r, hr, hkey⟩ := List.mem_map.mp h
  have hpath := List.mem_map_of_mem (f := CacheRequest.path) hr
  rw [← map_fst_answers (start files)] at hpath
  obtain ⟨⟨path', answer⟩, hmem, heq⟩ := List.mem_map.mp hpath
  exact ⟨path', answer, hmem, (congrArg Path.key heq).trans hkey⟩

/-! ## New spellings -/

/-- What is returned next to answers that have it already was first returned for another path. -/
theorem firstPath?_append_ne {answers more : List (String × Option Nat)}
    (hnew : path ∉ answers.map Prod.fst) (h : (path', some place) ∈ answers) :
    firstPath? place (answers ++ more) ≠ some path := by
  intro heq
  obtain ⟨a, ha, hfirst⟩ := Option.map_eq_some_iff.mp heq
  have hsome : (answers.find? fun a ↦ a.2 = some place).isSome = true :=
    List.find?_isSome.mpr ⟨_, h, decide_eq_true rfl⟩
  rw [List.find?_append, Option.or_of_isSome hsome] at ha
  exact hnew (hfirst ▸ List.mem_map_of_mem (List.mem_of_find?_eq_some ha))

/-- A place that was not returned before is returned for a path of its own. -/
theorem firstPath?_concat {answers : List (String × Option Nat)}
    (h : ∀ a ∈ answers, a.2 ≠ some place) :
    firstPath? place (answers ++ [(path, some place)]) = some path := by
  have hnone : answers.find? (fun a ↦ a.2 = some place) = none :=
    List.find?_eq_none.mpr fun a ha heq ↦ h a ha (of_decide_eq_true heq)
  have hself : [(path, some place)].find? (fun a ↦ a.2 = some place) = some (path, some place) :=
    List.find?_cons_of_pos (decide_eq_true rfl)
  rw [firstPath?, List.find?_append, hnone, Option.none_or, hself]
  rfl

/-- **A new spelling gets an image of its own exactly if its key is new**, provided that the file
can be opened. If the key was asked for, the answer is the one that was given then. -/
theorem get_firstOfKey {image : Image FileTree}
    (hnew : path ∉ (CacheRequest.ofSteps files steps).map CacheRequest.path)
    (hopens : ((Image.openFile path).ends ((start files).after steps).files).1 = .ok image) :
    let call := (((start files).after steps).get path).value
    let asked := (CacheRequest.ofSteps files steps).map CacheRequest.key
    ((∃ place, call.1 = some place ∧
        firstPath? place ((start files).answers (steps ++ [.get path])) = some path) ↔
      Path.key path ∉ asked) ∧
      (Path.key path ∉ asked → ∃ place, call.1 = some place ∧
        ∀ more, (call.2.after more).cache.image? place = some ⟨image, {}⟩) ∧
      (∀ path' answer, (path', answer) ∈ (start files).answers steps →
        Path.key path' = Path.key path → call.1 = answer) ∧
      Path.Componentwise Path.key := by
  intro call asked
  have hanswers : (start files).answers (steps ++ [.get path]) =
      (start files).answers steps ++ [(path, call.1)] := answers_append _ _ _
  have hshared : ∀ path' answer, (path', answer) ∈ (start files).answers steps →
      Path.key path' = Path.key path → call.1 = answer :=
    fun path' answer hmem hkey ↦ congrArg (·.value.1) (get_of_mem_answers hmem hkey)
  have hfirst (hkey : Path.key path ∉ asked) :
      call.1 = some ((start files).after steps).cache.images.length ∧
        call.2.cache = ((start files).after steps).cache.keep path (some image) := by
    have hcall := (get_of_none ((kept_after files steps).1.unasked path
      (CacheRequest.first?_eq_none_iff.mpr hkey))).1
    rw [hopens] at hcall
    exact ⟨congrArg Prod.fst hcall, congrArg (·.2.cache) hcall⟩
  refine ⟨⟨?shared, ?own⟩, ?stays, hshared, Path.componentwise_key⟩
  case shared =>
    rintro ⟨place, hplace, hpath⟩ hkey
    obtain ⟨path', answer, hmem, hkey'⟩ := exists_mem_answers hkey
    obtain rfl : answer = some place := (hshared path' answer hmem hkey').symm.trans hplace
    rw [hanswers] at hpath
    refine firstPath?_append_ne ?_ hmem hpath
    rwa [map_fst_answers _ files]
  case own =>
    intro hkey
    obtain ⟨hplace, -⟩ := hfirst hkey
    refine ⟨_, hplace, ?_⟩
    rw [hanswers, hplace]
    refine firstPath?_concat fun ⟨path', answer⟩ hmem hsame ↦ ?_
    obtain rfl : answer = _ := hsame
    exact Nat.lt_irrefl _ (place_lt_of_mem_answers hmem)
  case stays =>
    intro hkey
    obtain ⟨hplace, hcache⟩ := hfirst hkey
    refine ⟨_, hplace, fun more ↦ (extends_after _ more).image ?_⟩
    rw [hcache]
    exact List.getElem?_concat_length

/-- A leading dot makes another key, so `./a` gets an image of its own next to that of `a`. -/
theorem get_firstOfKey_leadingDot :
    let files := FileTree.empty ["work"]
    let steps := [CacheStep.change (.write "a" bareImage), .get "a"]
    ∃ place, (((start files).after steps).get "./a").value.1 = some place ∧
      firstPath? place ((start files).answers (steps ++ [.get "./a"])) = some "./a" := by
  intro files steps
  obtain ⟨image, hresult⟩ :
      ∃ image, ((Image.openFile "./a").ends ((start files).after steps).files).1 = .ok image :=
    exists_eq_ok_of_toBool (by decide +kernel)
  exact (get_firstOfKey (by decide) hresult).1.mpr (by decide +kernel)

/-- Spellings that differ only in slashes do not get images of their own. With a slash behind it the
name of a file leads nowhere, and then nothing is returned for the name without it either. With two
slashes on the way an image is returned that was returned before. -/
theorem get_otherSpelling :
    let files := FileTree.empty ["work"]
    let failing := [CacheStep.change (.write "a" bareImage), .get "a/"]
    let shared :=
      [CacheStep.change (.makeDirectory "d"), .change (.write "d/a" bareImage), .get "d/a"]
    ("a" ∉ (CacheRequest.ofSteps files failing).map CacheRequest.path ∧
        ((Image.openFile "a").ends ((start files).after failing).files).1.toBool = true ∧
        (((start files).after failing).get "a").value.1 = none) ∧
      "d//a" ∉ (CacheRequest.ofSteps files shared).map CacheRequest.path ∧
        ((Image.openFile "d//a").ends ((start files).after shared).files).1.toBool = true ∧
        (((start files).after shared).get "d//a").value.1 = some 0 ∧
        firstPath? 0 ((start files).answers (shared ++ [.get "d//a"])) = some "d/a" := by
  decide +kernel

end CacheUse

end ElfUnwind
