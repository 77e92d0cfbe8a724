import Mathlib.Data.List.Induction
import Mathlib.Data.List.Lattice
import Mathlib.Data.List.Pairwise
import Stencil.Extension

/-!
# Owners of words

Extensions are registered one after another, and a registration that is refused changes nothing.
However the calls go, no word of the grammar is claimed and no word is claimed by two of the
registered extensions. Hence the search for the extension that claims a word, which takes the first
one it meets, does not depend on the order in which they were registered.
-/

namespace Stencil

/-- Two extensions that claim no common word. -/
def Extension.Apart (first second : Extension) : Prop :=
  first.tags.Disjoint second.tags

instance : Std.Symm Extension.Apart := ⟨fun _ _ => List.Disjoint.symm⟩

namespace Registry

variable (registry : Registry)

/-- The registry after a call that adds an extension or is refused. -/
def attempt (extension : Extension) : Registry :=
  match add extension registry with
  | .ok _ next | .error _ next => next

/-- The registry after calls for extensions in turn, refused or not, from an empty one on. -/
def afterCalls (calls : List Extension) : Registry :=
  calls.foldl attempt {}

/-- No word of the grammar is claimed, and no word is claimed by two of the extensions. -/
structure Owned : Prop where
  free : ∀ word ∈ registry.tags, isBuiltinTag word = false
  apart : registry.extensions.Pairwise Extension.Apart

/-- Whether every word of an extension can still be claimed. -/
def Admits (extension : Extension) : Prop :=
  ∀ word ∈ extension.tags, isBuiltinTag word = false ∧ word ∉ registry.tags

variable {registry} {extension : Extension}

theorem mem_tags_iff {word : String} :
    word ∈ registry.tags ↔ ∃ owner ∈ registry.extensions, word ∈ owner.tags :=
  List.mem_flatMap

theorem tags_append (extensions : List Extension) :
    tags ⟨extensions ++ [extension]⟩ = tags ⟨extensions⟩ ++ extension.tags := by
  simp [tags]

theorem find?_eq_none_iff {word : String} :
    registry.find? word = none ↔ word ∉ registry.tags := by
  simp [find?, mem_tags_iff]

/-- Only words of the grammar and words with an owner cannot be claimed. -/
theorem claimFault?_eq_none_iff {word : String} :
    registry.claimFault? word = none ↔ isBuiltinTag word = false ∧ word ∉ registry.tags := by
  rw [claimFault?, ← find?_eq_none_iff]
  cases isBuiltinTag word <;> simp

/-- A word is claimed or refused, and the registry stays as it is. -/
theorem claim_eq (name word : String) :
    claim name word registry = match registry.claimFault? word with
      | some fault => .error (.extensionFailed name fault .nowhere) registry
      | none => .ok () registry := by
  change (match registry.claimFault? word with
    | some fault => throw (.extensionFailed name fault .nowhere)
    | none => pure () : EStateM SyntaxError Registry Unit) registry = _
  cases registry.claimFault? word <;> rfl

/-- Words are claimed one after another, up to the first that cannot be. -/
theorem forM_claim_eq (name : String) (words : List String) :
    words.forM (claim name) registry = match words.findSome? registry.claimFault? with
      | some fault => .error (.extensionFailed name fault .nowhere) registry
      | none => .ok () registry := by
  induction words with
  | nil => rfl
  | cons word words ih =>
    have first : claim name word registry = _ := claim_eq name word
    have step : (word :: words).forM (claim name) registry =
        EStateM.bind (claim name word) (fun _ => words.forM (claim name)) registry := rfl
    rw [step, EStateM.bind, first, List.findSome?_cons]
    cases registry.claimFault? word with
    | none => exact ih
    | some fault => rfl

theorem add_eq : add extension registry = match extension.tags.findSome? registry.claimFault? with
    | some fault => .error (.extensionFailed extension.name fault .nowhere) registry
    | none => .ok () ⟨registry.extensions ++ [extension]⟩ := by
  simp only [add, bind, EStateM.bind, forM_claim_eq]
  cases extension.tags.findSome? registry.claimFault? <;> rfl

/-- An extension whose words are all free is added behind the others. -/
theorem add_of_admits (admits : registry.Admits extension) :
    add extension registry = .ok () ⟨registry.extensions ++ [extension]⟩ := by
  have noFault : extension.tags.findSome? registry.claimFault? = none :=
    List.findSome?_eq_none_iff.mpr fun word isWord =>
      claimFault?_eq_none_iff.mpr (admits word isWord)
  rw [add_eq, noFault]

/-- An extension with a word that is not free is refused, for the first such word it has, and the
registry is left as it was. -/
theorem add_of_not_admits (refused : ¬ registry.Admits extension) :
    ∃ before word after fault, extension.tags = before ++ word :: after ∧
      (∀ earlier ∈ before, registry.claimFault? earlier = none) ∧
      registry.claimFault? word = some fault ∧
      add extension registry =
        .error (.extensionFailed extension.name fault .nowhere) registry := by
  cases isFault : extension.tags.findSome? registry.claimFault? with
  | none =>
    rw [List.findSome?_eq_none_iff] at isFault
    exact absurd (fun word isWord => claimFault?_eq_none_iff.mp (isFault word isWord)) refused
  | some fault =>
    obtain ⟨before, word, after, split, isFirst, free⟩ := List.findSome?_eq_some_iff.mp isFault
    refine ⟨before, word, after, fault, split, free, isFirst, ?_⟩
    rw [add_eq, isFault]

theorem attempt_of_admits (admits : registry.Admits extension) :
    registry.attempt extension = ⟨registry.extensions ++ [extension]⟩ := by
  rw [attempt, add_of_admits admits]

theorem attempt_of_not_admits (refused : ¬ registry.Admits extension) :
    registry.attempt extension = registry := by
  obtain ⟨_, _, _, _, _, _, _, isError⟩ := add_of_not_admits refused
  rw [attempt, isError]

theorem afterCalls_append (calls : List Extension) :
    afterCalls (calls ++ [extension]) = (afterCalls calls).attempt extension := by
  rw [afterCalls, List.foldl_append]
  rfl

/-- One more extension keeps the words owned exactly if all of its words were free. -/
theorem owned_append_iff (extensions : List Extension) :
    Owned ⟨extensions ++ [extension]⟩ ↔
      Owned ⟨extensions⟩ ∧ Admits ⟨extensions⟩ extension := by
  constructor
  · intro owned
    obtain ⟨free, apart⟩ := owned
    rw [tags_append, List.forall_mem_append] at free
    obtain ⟨apart, _, disjoint⟩ := List.pairwise_append.mp apart
    refine ⟨⟨free.1, apart⟩, fun word isWord => ⟨free.2 word isWord, fun isClaimed => ?_⟩⟩
    obtain ⟨owner, isOwner, claims⟩ := mem_tags_iff.mp isClaimed
    exact disjoint owner isOwner extension List.mem_cons_self claims isWord
  · rintro ⟨owned, admits⟩
    constructor
    · rw [tags_append, List.forall_mem_append]
      exact ⟨owned.free, fun word isWord => (admits word isWord).1⟩
    · refine List.pairwise_append.mpr ⟨owned.apart, List.pairwise_singleton _ _, ?_⟩
      intro owner isOwner _ isLast word claims isWord
      rw [List.mem_singleton.mp isLast] at isWord
      exact (admits word isWord).2 (mem_tags_iff.mpr ⟨owner, isOwner, claims⟩)

namespace Owned

/-- An attempt to add an extension keeps the words owned. -/
theorem attempt (owned : registry.Owned) (extension : Extension) :
    (registry.attempt extension).Owned := by
  by_cases admits : registry.Admits extension
  · rw [attempt_of_admits admits]
    exact (owned_append_iff registry.extensions).mpr ⟨owned, admits⟩
  · rw [attempt_of_not_admits admits]
    exact owned

/-- The words stay owned in any sequence of calls. -/
theorem afterCalls (calls : List Extension) : (afterCalls calls).Owned := by
  induction calls using List.reverseRecOn with
  | nil => exact ⟨fun _ isClaimed => absurd isClaimed List.not_mem_nil, .nil⟩
  | append_singleton calls extension ih =>
    rw [afterCalls_append]
    exact ih.attempt extension

/-- The extension that is found for a word is the one that claims it. -/
theorem find?_eq_some_iff (owned : registry.Owned) {word : String} {owner : Extension} :
    registry.find? word = some owner ↔ owner ∈ registry.extensions ∧ word ∈ owner.tags := by
  constructor
  · intro isFound
    exact ⟨List.mem_of_find?_eq_some isFound, by simpa using List.find?_some isFound⟩
  · rintro ⟨isOwner, claims⟩
    cases isFound : registry.find? word with
    | none =>
      exact absurd (mem_tags_iff.mpr ⟨owner, isOwner, claims⟩) (find?_eq_none_iff.mp isFound)
    | some other =>
      have isOther : other ∈ registry.extensions := List.mem_of_find?_eq_some isFound
      have claims' : word ∈ other.tags := by simpa using List.find?_some isFound
      by_contra differ
      have disjoint := owned.apart.forall isOther isOwner fun same =>
        differ (congrArg some same)
      exact disjoint claims' claims

/-- The order of the extensions does not matter. -/
theorem perm {order : List Extension} (owned : registry.Owned)
    (isOrder : order.Perm registry.extensions) : Owned ⟨order⟩ := by
  constructor
  · intro word isClaimed
    refine owned.free word ?_
    obtain ⟨owner, isOwner, claims⟩ := mem_tags_iff.mp isClaimed
    exact mem_tags_iff.mpr ⟨owner, isOrder.mem_iff.mp isOwner, claims⟩
  · exact owned.apart.perm isOrder.symm List.Disjoint.symm

/-- Extensions that own their words can be registered one after another. -/
theorem afterCalls_eq {extensions : List Extension} (owned : Owned ⟨extensions⟩) :
    Registry.afterCalls extensions = ⟨extensions⟩ := by
  induction extensions using List.reverseRecOn with
  | nil => rfl
  | append_singleton extensions extension ih =>
    obtain ⟨owned, admits⟩ := (owned_append_iff extensions).mp owned
    rw [afterCalls_append, ih owned, attempt_of_admits admits]

/-- In another order the same extension is found for a word. -/
theorem find?_perm {order : List Extension} (owned : registry.Owned)
    (isOrder : order.Perm registry.extensions) (word : String) :
    find? ⟨order⟩ word = registry.find? word := by
  ext owner
  rw [(owned.perm isOrder).find?_eq_some_iff, owned.find?_eq_some_iff, isOrder.mem_iff]

end Owned

/-- A call is refused exactly if some word is built in or claimed already. -/
theorem exists_add_error_iff :
    (∃ error next, add extension registry = .error error next) ↔
      ∃ word ∈ extension.tags, isBuiltinTag word = true ∨ word ∈ registry.tags := by
  have hasFault : ¬ registry.Admits extension ↔
      ∃ word ∈ extension.tags, isBuiltinTag word = true ∨ word ∈ registry.tags := by
    simp [Admits, imp_iff_not_or]
  rw [← hasFault]
  constructor
  · rintro ⟨error, next, isError⟩ admits
    rw [add_of_admits admits] at isError
    cases isError
  · intro refused
    obtain ⟨_, _, _, _, _, _, _, isError⟩ := add_of_not_admits refused
    exact ⟨_, _, isError⟩

/-- A call that is refused leaves the registry as it was. -/
theorem eq_of_add_error {error : SyntaxError} {next : Registry}
    (isError : add extension registry = .error error next) : next = registry := by
  by_cases admits : registry.Admits extension
  · rw [add_of_admits admits] at isError
    cases isError
  · obtain ⟨_, _, _, _, _, _, _, isRefused⟩ := add_of_not_admits admits
    rw [isRefused] at isError
    cases isError
    rfl

/-- A call that is not refused adds the extension behind the others. -/
theorem eq_of_add_ok {next : Registry} (isNext : add extension registry = .ok () next) :
    next = ⟨registry.extensions ++ [extension]⟩ := by
  by_cases admits : registry.Admits extension
  · rw [add_of_admits admits] at isNext
    cases isNext
    rfl
  · obtain ⟨_, _, _, _, _, _, _, isError⟩ := add_of_not_admits admits
    rw [isError] at isNext
    cases isNext

/-- However extensions are registered, no claimed word belongs to the grammar and no two of the
registered extensions share a word. The extension that is found for a word is the one that claims
it, whatever the order in which the extensions came. A call is refused exactly if a word of its
extension is built in or claimed already, and then nothing changes. -/
theorem words_have_one_owner (calls : List Extension) :
    (∀ word ∈ (afterCalls calls).tags, isBuiltinTag word = false) ∧
    (afterCalls calls).extensions.Pairwise Extension.Apart ∧
    (∀ word owner, (afterCalls calls).find? word = some owner ↔
      owner ∈ (afterCalls calls).extensions ∧ word ∈ owner.tags) ∧
    (∀ word, (afterCalls calls).find? word = none ↔
      ∀ owner ∈ (afterCalls calls).extensions, word ∉ owner.tags) ∧
    (∀ order : List Extension, order.Perm (afterCalls calls).extensions →
      (afterCalls order).extensions = order ∧
      ∀ word, (afterCalls order).find? word = (afterCalls calls).find? word) ∧
    ∀ extension,
      ((∃ error next, add extension (afterCalls calls) = .error error next) ↔
        ∃ word ∈ extension.tags, isBuiltinTag word = true ∨ word ∈ (afterCalls calls).tags) ∧
      (∀ error next, add extension (afterCalls calls) = .error error next →
        next = afterCalls calls ∧ afterCalls (calls ++ [extension]) = afterCalls calls) ∧
      ∀ next, add extension (afterCalls calls) = .ok () next →
        afterCalls (calls ++ [extension]) = next ∧
          next.extensions = (afterCalls calls).extensions ++ [extension] := by
  have owned := Owned.afterCalls calls
  refine ⟨owned.free, owned.apart, fun word owner => owned.find?_eq_some_iff, fun word => ?_,
    fun order isOrder => ?_, fun extension => ⟨exists_add_error_iff, ?_, ?_⟩⟩
  · simp [find?_eq_none_iff, mem_tags_iff]
  · rw [(owned.perm isOrder).afterCalls_eq]
    exact ⟨rfl, owned.find?_perm isOrder⟩
  · intro error next isError
    obtain rfl := eq_of_add_error isError
    rw [afterCalls_append, attempt, isError]
    exact ⟨rfl, rfl⟩
  · intro next isNext
    rw [afterCalls_append, attempt, isNext]
    exact ⟨rfl, congrArg extensions (eq_of_add_ok isNext)⟩

/-- Of three extensions the second is refused at its second word and the third at a word of the
grammar. -/
theorem words_have_one_owner_refused : ∃ first second third : Extension,
    second.tags = ["cry", "shout"] ∧ third.tags = ["raw"] ∧
    afterCalls [first, second] = afterCalls [first] ∧
    (∃ error, add third (afterCalls [first, second]) =
      .error error (afterCalls [first, second])) ∧
    (afterCalls [first, second, third]).find? "shout" = some first ∧
    (afterCalls [first, second, third]).find? "cry" = none := by
  let first : Extension := ⟨"loud", ["shout"], fun _ _ => pure none⟩
  let second : Extension := ⟨"louder", ["cry", "shout"], fun _ _ => pure none⟩
  let third : Extension := ⟨"plain", ["raw"], fun _ _ => pure none⟩
  obtain ⟨-, -, found, notFound, -, -⟩ := words_have_one_owner [first, second, third]
  obtain ⟨-, -, -, -, -, calls⟩ := words_have_one_owner [first]
  obtain ⟨-, -, -, -, -, furtherCalls⟩ := words_have_one_owner [first, second]
  obtain ⟨isRefused, unchanged, -⟩ := calls second
  obtain ⟨error, next, isError⟩ := isRefused.mpr ⟨"shout", by decide, Or.inr List.mem_cons_self⟩
  obtain ⟨isRefusedToo, unchangedToo, -⟩ := furtherCalls third
  obtain ⟨error', next', isErrorToo⟩ :=
    isRefusedToo.mpr ⟨"raw", List.mem_cons_self, Or.inl (by decide)⟩
  obtain ⟨rfl, -⟩ := unchangedToo error' next' isErrorToo
  refine ⟨first, second, third, rfl, rfl, (unchanged error next isError).2, ⟨error', isErrorToo⟩,
    (found "shout" first).mpr ⟨List.mem_cons_self, List.mem_cons_self⟩,
    (notFound "cry").mpr fun owner isOwner => ?_⟩
  rw [List.mem_singleton.mp isOwner]
  decide

end Registry

end Stencil
