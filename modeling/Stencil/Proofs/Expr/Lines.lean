import Stencil.Proofs.Expr.Soundness
import Stencil.Proofs.Stmt.WalkOrder

/-!
# Lines of expressions

The nodes of an expression are lined up with the tokens that the expression is derived from. An
expression that begins with another one is on the line of that one, and every other expression is on
the line of its own first token. The walk meets the parts of an expression in the order in which
they are written.
-/

namespace Stencil

/-- Pieces with commas between them stand in their list one after the other. -/
theorem CommaSeparated.flatten_sublist {pieces : List (List Token)} {word : List Token}
    (separated : CommaSeparated pieces word) : pieces.flatten.Sublist word := by
  induction separated with
  | nil => exact List.Sublist.refl _
  | single piece => simp
  | snoc _ _ _ piece ih =>
      rw [List.flatten_append, List.flatten_singleton]
      exact ih.append (List.sublist_cons_self _ piece)

theorem CommaList.flatten_sublist {pieces : List (List Token)} {word : List Token}
    (separated : CommaList pieces word) : pieces.flatten.Sublist word := by
  cases separated with
  | plain separated => exact separated.flatten_sublist
  | trailing separated =>
      exact separated.flatten_sublist.trans (List.sublist_append_left _ _)

namespace Expr

open Node (LinedUp)

variable {sourceName : Option String}

theorem nodes_eq_cons (expr : Expr) : ∃ inner, expr.nodes = expr :: inner := by
  cases expr <;> exact ⟨_, by rw [nodes]⟩

/-- An expression that begins with another one is on the line of that one. -/
theorem linedUp_begins {word : List Token} {value root : Expr} {rest : List Node}
    (linedUp : LinedUp sourceName word (value.nodes.map .expr ++ rest))
    (sameLine : root.origin = ⟨value.line, sourceName⟩) :
    LinedUp sourceName word (.expr root :: (value.nodes.map .expr ++ rest)) := by
  obtain ⟨inner, isRoot⟩ := nodes_eq_cons value
  rw [isRoot, List.map_cons, List.cons_append] at linedUp ⊢
  exact linedUp.again sameLine

theorem SpellsLiteral.linedUp {word : List Token} {expr : Expr}
    (spells : SpellsLiteral sourceName word expr) :
    LinedUp sourceName word (expr.nodes.map .expr) := by
  cases spells <;> (rw [nodes]; exact (LinedUp.nil _ _).head rfl)

/-- The nodes of a derived expression are lined up with its tokens. The induction goes over the
whole grammar, with a statement of its own for each kind of part. -/
theorem Derives.linedUp {level : Level} {word : List Token} {expr : Expr}
    (derives : Derives sourceName level word expr) :
    LinedUp sourceName word (expr.nodes.map .expr) := by
  refine @Derives.rec sourceName
    (fun _ word expr _ => LinedUp sourceName word (expr.nodes.map .expr))
    (fun word named _ => LinedUp sourceName word (named.value.nodes.map .expr))
    (fun word args kwargs _ => LinedUp sourceName word
      ((nodesOfList args).map .expr ++ (nodesOfNamed kwargs).map .expr))
    (fun word args kwargs _ => LinedUp sourceName word
      ((nodesOfList args).map .expr ++ (nodesOfNamed kwargs).map .expr))
    (fun word args kwargs _ => LinedUp sourceName word
      ((nodesOfList args).map .expr ++ (nodesOfNamed kwargs).map .expr))
    (fun word optional _ => LinedUp sourceName word ((nodesOfOption optional).map .expr))
    (fun word optional _ => LinedUp sourceName word ((nodesOfOption optional).map .expr))
    (fun word index _ => LinedUp sourceName word (index.nodes.map .expr))
    (fun pieces items _ => LinedUp sourceName pieces.flatten ((nodesOfList items).map .expr))
    (fun pieces kwargs _ => LinedUp sourceName pieces.flatten ((nodesOfNamed kwargs).map .expr))
    ?loosen ?onlyIf ?ifElse ?binary ?not_ ?test ?filter ?sign ?attr ?place ?item ?call ?name
    ?literal ?list ?parenthesized ?named ?arguments ?noneGiven ?someGiven ?given ?bare
    ?noneOptional ?someOptional ?noneStep ?someStep ?index ?slice ?noItem ?items ?noNamed ?allNamed
    level word expr derives
  case loosen => exact fun _ ih => ih
  case onlyIf =>
    intro if_ first second value condition _ _ _ ihValue ihCondition
    simp only [nodes, nodesOfOption, List.map_cons, List.map_append, List.append_nil]
    exact linedUp_begins (ihValue.append (ihCondition.tail if_)) rfl
  case ifElse =>
    intro if_ else_ first second third value condition otherwise _ _ _ _ _ ihValue ihCondition
      ihOtherwise
    simp only [nodes, nodesOfOption, List.map_cons, List.map_append, List.append_assoc]
    have rest := (ihCondition.append (ihOtherwise.tail else_)).tail if_
    exact linedUp_begins (ihValue.append rest) rfl
  case binary =>
    intro op first operator second left right _ _ _ ihLeft ihRight
    simp only [nodes, List.map_cons, List.map_append]
    exact linedUp_begins ((ihLeft.left operator).append ihRight) rfl
  case not_ | sign =>
    intros
    rename_i ih
    simp only [nodes, List.map_cons]
    exact (ih.tail _).head rfl
  case test =>
    intro is_ first negation called arguments value name args kwargs negated _ _ _ _ _ ihValue
      ihGiven
    simp only [nodes, List.map_cons, List.map_append, List.append_assoc]
    have value := ihValue.left (is_ :: negation ++ called)
    exact linedUp_begins ((value.append ihGiven).within (by simp)) rfl
  case filter =>
    intro pipe first called arguments value name args kwargs _ _ isName _ ihValue ihGiven
    simp only [nodes, List.map_cons, List.map_append, List.append_assoc]
    have value := ihValue.left (pipe :: called)
    exact linedUp_begins ((value.append ihGiven).within (by simp)) rfl
  case attr =>
    intro dot member word value name _ _ _ ih
    simp only [nodes, List.map_cons]
    rw [← List.append_nil (List.map Node.expr value.nodes)]
    exact linedUp_begins (by simpa using ih.left [dot, member]) rfl
  case place =>
    intro dot number word value index _ _ _ hasValue ih
    simp only [nodes, List.map_cons, List.map_append]
    exact linedUp_begins (ih.append (hasValue.linedUp.tail dot)) rfl
  case item =>
    intro opening closing word inside value index _ _ _ _ ihValue ihIndex
    simp only [nodes, List.map_cons, List.map_append]
    have linedUp := ihValue.append ((ihIndex.left [closing]).tail opening)
    exact linedUp_begins (linedUp.within (by simp)) rfl
  case call =>
    intro word arguments callee args kwargs _ _ ihCallee ihGiven
    simp only [nodes, List.map_cons, List.map_append, List.append_assoc]
    exact linedUp_begins (ihCallee.append ihGiven) rfl
  case name =>
    intro token _
    simp only [nodes, List.map_cons]
    exact (LinedUp.nil _ _).head rfl
  case literal => exact fun isLiteral => isLiteral.linedUp
  case list =>
    intro opening closing pieces body items _ _ _ separated ih
    simp only [nodes, List.map_cons]
    exact (((ih.within separated.flatten_sublist).left [closing]).tail opening).head rfl
  case parenthesized =>
    intro opening closing word expr _ _ _ ih
    exact (ih.left [closing]).tail opening
  case named =>
    intro key assign word value isName _ _ ih
    exact (ih.tail assign).tail key
  case arguments =>
    intro opening closing pieces named body args kwargs _ _ _ _ separated ih ihNamed
    have given := ih.append ihNamed
    rw [← List.flatten_append] at given
    exact ((given.within separated.flatten_sublist).left [closing]).tail opening
  case noneGiven => exact LinedUp.nil _ _
  case someGiven | given => exact fun _ ih => ih
  case bare =>
    intro token word arg _ _ ih
    simpa [nodesOfList, nodesOfNamed] using ih
  case noneOptional | noneStep => exact LinedUp.nil _ _
  case someOptional => exact fun _ ih => ih
  case someStep => exact fun _ _ ih => ih.tail _
  case index => exact fun _ ih => ih
  case slice =>
    intro token colon first second third start stop step _ _ _ _ begins ihStart ihStop ihStep
    simp only [nodes, List.map_cons, List.map_append, List.append_assoc]
    have linedUp := ihStart.append ((ihStop.append ihStep).tail colon)
    obtain ⟨rest, isFirst⟩ : ∃ rest, first ++ colon :: (second ++ third) = token :: rest := by
      rw [List.head?_append, List.head?_singleton] at begins
      cases first with
      | nil => exact ⟨second ++ third, congrArg (· :: _) (Option.some.inj begins)⟩
      | cons head first =>
          exact ⟨first ++ colon :: (second ++ third), congrArg (· :: _) (Option.some.inj begins)⟩
    rw [List.cons_append, isFirst]
    rw [isFirst] at linedUp
    exact linedUp.head rfl
  case noItem | noNamed => exact LinedUp.nil _ _
  case items =>
    intro piece item pieces items _ _ ih ihRest
    rw [nodesOfList, List.map_append]
    exact ih.append ihRest
  case allNamed =>
    intro piece named pieces kwargs _ _ ih ihRest
    rcases named with ⟨name, value⟩
    rw [nodesOfNamed, List.map_append]
    exact ih.append ihRest

theorem linedUp_items {level : Level} {pieces : List (List Token)} {items : List Expr}
    (each : List.Forall₂ (Derives sourceName level) pieces items) :
    LinedUp sourceName pieces.flatten ((nodesOfList items).map .expr) := by
  induction each with
  | nil => exact LinedUp.nil _ _
  | cons first _ ih =>
      rw [nodesOfList, List.map_append]
      exact first.linedUp.append ih

theorem linedUp_named {pieces : List (List Token)} {kwargs : List (Named Expr)}
    (each : List.Forall₂ (DerivesNamed sourceName) pieces kwargs) :
    LinedUp sourceName pieces.flatten ((nodesOfNamed kwargs).map .expr) := by
  induction each with
  | nil => exact LinedUp.nil _ _
  | cons first _ ih =>
      rcases first with @⟨key, assign, word, value, _, _, inner⟩
      rw [nodesOfNamed, List.map_append]
      exact ((inner.linedUp.tail assign).tail key).append ih

/-- Arguments are lined up with their tokens, whatever they are given to. -/
theorem DerivesGiven.linedUp {word : List Token} {args : List Expr} {kwargs : List (Named Expr)}
    (given : DerivesGiven sourceName word args kwargs) :
    LinedUp sourceName word
      ((nodesOfList args).map .expr ++ (nodesOfNamed kwargs).map .expr) := by
  cases given with
  | none => exact LinedUp.nil _ _
  | some inner =>
      rcases inner with @⟨opening, closing, _, _, _, _, _, _, _, each, eachNamed, separated⟩
      have given := (linedUp_items each).append (linedUp_named eachNamed)
      rw [← List.flatten_append] at given
      exact ((given.within separated.flatten_sublist).left [closing]).tail opening

/-! ### Rules -/

variable [Limits]

section

variable {stream : TokenStream} {levels start stop : Nat} (closed : stream.IsClosed)

include closed

theorem parse_linedUp {expr : Expr} (parsed : parse levels stream start = .ok expr stop) :
    start ≤ stop ∧
      LinedUp stream.sourceName (stream.between start stop) (Node.ofExpr expr) := by
  have accounts := (deeper_sound closed levels).conditional start expr stop parsed
  exact ⟨accounts.1, accounts.2.linedUp⟩

theorem parseUnconditional_linedUp {expr : Expr}
    (parsed : parseUnconditional levels stream start = .ok expr stop) :
    start ≤ stop ∧
      LinedUp stream.sourceName (stream.between start stop) (Node.ofExpr expr) := by
  cases levels with
  | zero => cases parsed
  | succ levels =>
      have accounts := disjunction_accounts closed (deeper_inside closed levels)
        (deeper_sound closed levels) expr stop parsed
      exact ⟨accounts.1, accounts.2.linedUp⟩

theorem filterCall_linedUp :
    AccountsFor stream start (filterCall (deeper levels)) fun word applied =>
      LinedUp stream.sourceName word (Node.ofFilters [applied]) := by
  apply (filterCall_accounts closed (deeper_inside closed levels) (deeper_sound closed levels)).mono
  rintro word applied ⟨called, arguments, rfl, _, given⟩
  rw [Node.ofFilters, List.flatMap_singleton, List.map_append]
  exact given.linedUp.right called

end

end Expr

end Stencil
