import Stencil.Proofs.Token.Items

/-!
# Tokens with more comments

Comments may stand between any two items of a template. The tokens of a template are set beside
those of the same template with comments put in: token for token as far as both are the same, and
with comments skipped on one side where no item is open. The region that both sides have come to
says where comments can have been put in and which tokens may come next.
-/

namespace Stencil

/-- The tokens of a comment. -/
inductive IsComment : List Token → Prop where
  | line {token : Token} (isLine : token.kind = .lineComment) : IsComment [token]
  | block {opening body closing : Token} (opens : opening.kind = .commentBegin)
      (isBody : body.kind = .comment) (closes : closing.kind = .commentEnd) :
      IsComment [opening, body, closing]

/-- Tokens up to the end of a template, and the same tokens with comments put in between items. -/
inductive Commented : Region → List Token → List Token → Prop where
  | ended : Commented .ended [] []
  | token {region : Region} {token : Token} {near far : List Token}
      (allowed : region.allows token.kind = true)
      (rest : Commented (region.after token.kind) near far) :
      Commented region (token :: near) (token :: far)
  | comment {region : Region} {comment near far : List Token}
      (isBetween : region.isBetween = true) (isComment : IsComment comment)
      (rest : Commented region near far) : Commented region near (comment ++ far)

theorem IsComment.isSignificant {comment : List Token} (isComment : IsComment comment) :
    ∀ token ∈ comment, token.kind.isSignificant = true := by
  cases isComment <;> simp [*, Token.Kind.isSignificant]

/-- The first token of a comment opens it or is all of it. -/
theorem IsComment.exists_cons {comment : List Token} (isComment : IsComment comment) :
    ∃ token rest, comment = token :: rest ∧
      (token.kind = .commentBegin ∨ token.kind = .lineComment) := by
  cases isComment with
  | line isLine => exact ⟨_, _, rfl, Or.inr isLine⟩
  | block opens => exact ⟨_, _, rfl, Or.inl opens⟩

/-- Nothing is open after an item. -/
theorem Item.isBetween_afterAll {item : List Token} (isItem : Item item) {region : Region}
    (isBetween : region.isBetween = true) : (region.afterAll item).isBetween = true := by
  cases isItem with
  | data isData =>
      cases region <;> simp_all [Region.afterAll, Region.after, Region.isBetween]
  | lineComment isComment => simp [Region.afterAll, isComment, Region.after, Region.isBetween]
  | closed unfinished closes =>
      rw [Region.afterAll_append]
      change (Region.after _ _).isBetween = true
      rw [closes]
      cases unfinished <;> rfl

theorem Region.afterAll_filter (region : Region) (tokens : List Token) :
    region.afterAll (tokens.filter (·.kind.isSignificant)) = region.afterAll tokens := by
  induction tokens generalizing region with
  | nil => rfl
  | cons token tokens ih =>
      rw [List.filter_cons]
      split
      · exact ih (region.after token.kind)
      · next hidden =>
        rw [ih]
        change _ = (region.after token.kind).afterAll tokens
        rw [after_of_isInner (isInner_of_not_isSignificant hidden)]

namespace Commented

variable {region : Region} {near far first rest tokens : List Token}

/-- Tokens may be set beside themselves. -/
theorem refl (shapes : region.Shapes tokens) (ends : region.afterAll tokens = .ended) :
    Commented region tokens tokens := by
  induction tokens generalizing region with
  | nil =>
      rw [show region = .ended from ends]
      exact .ended
  | cons token tokens ih => exact .token shapes.1 (ih shapes.2 ends)

theorem append (shapes : region.Shapes first) (rest : Commented (region.afterAll first) near far) :
    Commented region (first ++ near) (first ++ far) := by
  induction first generalizing region with
  | nil => exact rest
  | cons token first ih => exact .token shapes.1 (ih shapes.2 rest)

theorem comments {comments : List (List Token)} (isBetween : region.isBetween = true)
    (each : ∀ comment ∈ comments, IsComment comment) (rest : Commented region near far) :
    Commented region near (comments.flatten ++ far) := by
  induction comments with
  | nil => exact rest
  | cons comment comments ih =>
      rw [List.flatten_cons, List.append_assoc]
      refine .comment isBetween (each comment (by simp)) ?_
      exact ih fun other member => each other (by simp [member])

/-- Comments put in after items, as far as a reader sees them. -/
theorem of_items {items : List (List Token × List (List Token))}
    (isBetween : region.isBetween = true)
    (shapes : region.Shapes (items.flatMap Prod.fst ++ rest))
    (ends : region.afterAll (items.flatMap Prod.fst ++ rest) = .ended)
    (each : ∀ entry ∈ items, Item entry.1 ∧ ∀ comment ∈ entry.2, IsComment comment) :
    Commented region ((items.flatMap Prod.fst ++ rest).filter (·.kind.isSignificant))
      ((items.flatMap (fun entry => entry.1 ++ entry.2.flatten) ++ rest).filter
        (·.kind.isSignificant)) := by
  induction items generalizing region with
  | nil =>
      refine refl shapes.filter ?_
      rw [Region.afterAll_filter]
      exact ends
  | cons entry items ih =>
      rcases each entry (by simp) with ⟨isItem, areComments⟩
      have kept : entry.2.flatten.filter (·.kind.isSignificant) = entry.2.flatten := by
        refine List.filter_eq_self.2 fun token member => ?_
        rcases List.mem_flatten.1 member with ⟨comment, isOne, isPart⟩
        exact (areComments comment isOne).isSignificant token isPart
      rw [List.flatMap_cons, List.append_assoc] at shapes ends
      rw [Region.shapes_append] at shapes
      rw [Region.afterAll_append] at ends
      have behind := isItem.isBetween_afterAll isBetween
      simp only [List.flatMap_cons, List.append_assoc]
      rw [List.filter_append entry.1, List.filter_append entry.1,
        List.filter_append entry.2.flatten, kept]
      refine append shapes.1.filter ?_
      rw [Region.afterAll_filter]
      refine comments behind areComments ?_
      exact ih behind shapes.2 ends fun other member => each other (by simp [member])

/-- Comments that stand on one side only are skipped up to the next token of both sides. -/
theorem exists_comments (commented : Commented region near far) (notEnded : near ≠ []) :
    ∃ (comments : List (List Token)) (token : Token) (near' far' : List Token),
      (∀ comment ∈ comments, IsComment comment) ∧ near = token :: near' ∧
      far = comments.flatten ++ token :: far' ∧ region.allows token.kind = true ∧
      Commented (region.after token.kind) near' far' := by
  induction commented with
  | ended => exact absurd rfl notEnded
  | token allowed rest => exact ⟨[], _, _, _, by simp, rfl, rfl, allowed, rest⟩
  | @comment region comment near far _ isComment _ ih =>
      rcases ih notEnded with ⟨comments, token, near', far', each, rfl, rfl, allowed, rest⟩
      refine ⟨comment :: comments, token, near', far', ?_, rfl, by simp, allowed, rest⟩
      simpa [isComment] using each

/-- Where an item is open, both sides have the same next token. -/
theorem exists_cons (commented : Commented region near far) (isOpen : region.isBetween = false)
    (notEnded : region ≠ .ended) :
    ∃ token near' far', near = token :: near' ∧ far = token :: far' ∧
      region.allows token.kind = true ∧ Commented (region.after token.kind) near' far' := by
  cases commented with
  | ended => exact absurd rfl notEnded
  | token allowed rest => exact ⟨_, _, _, rfl, rfl, allowed, rest⟩
  | comment isBetween =>
      rw [isOpen] at isBetween
      cases isBetween

/-- Both sides have the same tokens up to the end of a tag. -/
theorem exists_parts (commented : Commented region near far) (inTag : region.isTag = true) :
    ∃ parts closing near' far', (∀ part ∈ parts, part.kind.isInner = true) ∧
      closing.kind.isInner = false ∧ near = parts ++ closing :: near' ∧
      far = parts ++ closing :: far' ∧ Commented (region.after closing.kind) near' far' := by
  induction commented with
  | ended => cases inTag
  | @token region token near far _ rest ih =>
      by_cases inner : token.kind.isInner = true
      · have stays : region.after token.kind = region := Region.after_of_isInner inner
        rw [stays] at ih
        rcases ih inTag with ⟨parts, closing, near', far', each, closes, rfl, rfl, further⟩
        refine ⟨token :: parts, closing, near', far', ?_, closes, rfl, rfl, further⟩
        simpa [inner] using each
      · exact ⟨[], token, near, far, by simp, by simpa using inner, rfl, rfl, rest⟩
  | @comment region comment near far isBetween =>
      cases region <;> simp [Region.isTag, Region.isBetween] at inTag isBetween

theorem ne_nil (commented : Commented region near far) (notEnded : region ≠ .ended) :
    near ≠ [] := by
  induction commented with
  | ended => exact absurd rfl notEnded
  | token => simp
  | comment _ _ _ ih => exact ih notEnded

/-- Both sides end at once. -/
theorem eq_nil_iff (commented : Commented region near far) : near = [] ↔ far = [] := by
  cases commented with
  | ended => exact Iff.rfl
  | token => simp
  | comment isBetween isComment rest =>
      have notEnded : region ≠ .ended := by
        rintro rfl
        cases isBetween
      have notNil := rest.ne_nil notEnded
      cases isComment <;> simp [notNil]

/-- Parts of a tag that both sides have read make no difference to what is left. -/
theorem drop_parts (commented : Commented region (first ++ near) (first ++ far))
    (inTag : region.isTag = true) (inner : ∀ part ∈ first, part.kind.isInner = true) :
    Commented region near far := by
  induction first with
  | nil => exact commented
  | cons part first ih =>
      have isOpen : region.isBetween = false := by cases region <;> first | rfl | cases inTag
      have notEnded : region ≠ .ended := by
        rintro rfl
        cases inTag
      rcases commented.exists_cons isOpen notEnded with
        ⟨token, near', far', sameNear, sameFar, _, rest⟩
      cases sameNear
      cases sameFar
      rw [Region.after_of_isInner (inner part (by simp))] at rest
      exact ih rest fun other member => inner other (by simp [member])

end Commented

end Stencil
