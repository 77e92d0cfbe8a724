import Mathlib
import Stencil.Stmt.Walk

/-!
# The order of a walk

A walk meets nodes in the order of their lines, except that it goes through the call of a call block
before it comes to the defaults of the block's parameters, which are written first. Nodes that are
met like this can be lined up with the tokens that they are read from: each node is on the line of a
token, and where the lines of the tokens do not decrease, the order of the walk is kept.
-/

namespace Stencil

/-- The lines of later tokens are not before those of earlier ones. -/
def Token.LinesInOrder (tokens : List Token) : Prop :=
  tokens.Pairwise fun first second => first.line ≤ second.line

instance (tokens : List Token) : Decidable (Token.LinesInOrder tokens) :=
  inferInstanceAs (Decidable (tokens.Pairwise _))

namespace Node

/-- Where a node came from. -/
def origin : Node → Origin
  | stmt statement => statement.origin
  | expr expression => expression.origin

/-- The line on which a node starts. -/
def line (node : Node) : Nat := node.origin.line

/-! ### Walks in order -/

/-- A walk is first in the call of a call block and then in the defaults of the block's parameters.
The nodes of both come directly after the block itself. -/
def IsSwapped (nodes : List Node) (first second : Nat) : Prop :=
  ∃ index origin call params body,
    nodes[index]? = some (.stmt (.callBlock origin call params body)) ∧
    index < first ∧ first ≤ index + (ofExpr call).length ∧
    index + (ofExpr call).length < second ∧
    second ≤ index + (ofExpr call).length + (ofParameters params).length

/-- A walk never comes back to an earlier line, other than from the call of a call block to the
defaults of its parameters. -/
def InOrder (nodes : List Node) : Prop :=
  ∀ first second earlier later, first < second → nodes[first]? = some earlier →
    nodes[second]? = some later → earlier.line ≤ later.line ∨ IsSwapped nodes first second

variable {before after nodes : List Node} {first second : Nat}

theorem IsSwapped.append (swapped : IsSwapped before first second) (after : List Node) :
    IsSwapped (before ++ after) first second := by
  rcases swapped with ⟨index, origin, call, params, body, isBlock, range⟩
  refine ⟨index, origin, call, params, body, ?_, range⟩
  rw [List.getElem?_append_left (List.getElem?_eq_some_iff.1 isBlock).1]
  exact isBlock

theorem IsSwapped.behind (swapped : IsSwapped after first second) (before : List Node) :
    IsSwapped (before ++ after) (before.length + first) (before.length + second) := by
  rcases swapped with ⟨index, origin, call, params, body, isBlock, range⟩
  refine ⟨before.length + index, origin, call, params, body, ?_, by omega⟩
  rw [List.getElem?_append_right (Nat.le_add_right _ _), Nat.add_sub_cancel_left]
  exact isBlock

theorem InOrder.nil : InOrder [] := by
  intro first second earlier later _ isEarlier
  simp at isEarlier

theorem InOrder.singleton (node : Node) : InOrder [node] := by
  intro first second earlier later later isEarlier isLater
  have := (List.getElem?_eq_some_iff.1 isLater).1
  simp only [List.length_singleton] at this
  omega

/-- Walks one after the other are in order, if each of them is and what is met in the first one is
on an earlier line than what is met in the second one, or swapped with it. -/
theorem InOrder.append_of_cross (inBefore : InOrder before) (inAfter : InOrder after)
    (cross : ∀ first second earlier later, before[first]? = some earlier →
      after[second]? = some later → earlier.line ≤ later.line ∨
        IsSwapped (before ++ after) first (before.length + second)) :
    InOrder (before ++ after) := by
  intro first second earlier later isOrdered isEarlier isLater
  rcases Nat.lt_or_ge second before.length with secondBefore | secondAfter
  · rw [List.getElem?_append_left (Nat.lt_trans isOrdered secondBefore)] at isEarlier
    rw [List.getElem?_append_left secondBefore] at isLater
    exact (inBefore first second earlier later isOrdered isEarlier isLater).imp_right
      (·.append after)
  · obtain ⟨second, rfl⟩ := Nat.exists_eq_add_of_le secondAfter
    rw [List.getElem?_append_right secondAfter, Nat.add_sub_cancel_left] at isLater
    rcases Nat.lt_or_ge first before.length with firstBefore | firstAfter
    · rw [List.getElem?_append_left firstBefore] at isEarlier
      exact cross first second earlier later isEarlier isLater
    · obtain ⟨first, rfl⟩ := Nat.exists_eq_add_of_le firstAfter
      rw [List.getElem?_append_right firstAfter, Nat.add_sub_cancel_left] at isEarlier
      exact (inAfter first second earlier later (by omega) isEarlier isLater).imp_right
        (·.behind before)

theorem InOrder.append (inBefore : InOrder before) (inAfter : InOrder after)
    (isBefore : ∀ earlier ∈ before, ∀ later ∈ after, earlier.line ≤ later.line) :
    InOrder (before ++ after) := by
  apply inBefore.append_of_cross inAfter
  intro first second earlier later isEarlier isLater
  exact Or.inl (isBefore _ (List.mem_of_getElem? isEarlier) _ (List.mem_of_getElem? isLater))

theorem InOrder.cons {node : Node} (inOrder : InOrder nodes)
    (isFirst : ∀ later ∈ nodes, node.line ≤ later.line) : InOrder (node :: nodes) := by
  refine (InOrder.singleton node).append inOrder ?_
  intro earlier isNode
  rwa [List.mem_singleton.1 isNode]

theorem InOrder.le_of_mem {node later : Node} (inOrder : InOrder (node :: nodes))
    (isLater : later ∈ nodes) : node.line ≤ later.line := by
  obtain ⟨index, isAt⟩ := List.getElem?_of_mem isLater
  rcases inOrder 0 (index + 1) node later (Nat.succ_pos index) rfl isAt with inOrder | swapped
  · exact inOrder
  · rcases swapped with ⟨_, _, _, _, _, _, impossible, _⟩
    omega

/-- The call of a call block and the defaults of its parameters may be in any order. -/
theorem InOrder.callBlock {origin : Origin} {call : Expr} {params : List Parameter}
    {body : List Stmt} (inCall : InOrder (ofExpr call)) (inParams : InOrder (ofParameters params))
    (callAfter : ∀ node ∈ ofExpr call, origin.line ≤ node.line)
    (paramsAfter : ∀ node ∈ ofParameters params, origin.line ≤ node.line) :
    InOrder (.stmt (.callBlock origin call params body) ::
      (ofExpr call ++ ofParameters params)) := by
  rw [← List.cons_append]
  have inOrder : InOrder (.stmt (.callBlock origin call params body) :: ofExpr call) :=
    inCall.cons callAfter
  refine inOrder.append_of_cross inParams ?_
  intro first second earlier later isEarlier isLater
  cases first with
  | zero =>
      obtain rfl : Node.stmt (.callBlock origin call params body) = earlier := by
        simpa using isEarlier
      exact Or.inl (paramsAfter _ (List.mem_of_getElem? isLater))
  | succ first =>
      have inCall := (List.getElem?_eq_some_iff.1 isEarlier).1
      have inParams := (List.getElem?_eq_some_iff.1 isLater).1
      rw [List.length_cons] at inCall
      refine Or.inr ⟨0, origin, call, params, body, rfl, ?_⟩
      rw [List.length_cons]
      omega

/-! ### Nodes and their tokens -/

/-- Nodes are lined up with a word of tokens. They have the name of the template, each is on the
line of one of the tokens, and they are met in the order in which the tokens stand. -/
structure LinedUp (sourceName : Option String) (word : List Token) (nodes : List Node) : Prop where
  named : ∀ node ∈ nodes, node.origin.sourceName = sourceName
  stands : ∀ node ∈ nodes, ∃ token ∈ word, node.line = token.line
  inOrder : Token.LinesInOrder word → InOrder nodes

namespace LinedUp

variable {sourceName : Option String} {word wider further : List Token} {root : Node}
  {token : Token}

theorem nil (sourceName : Option String) (word : List Token) : LinedUp sourceName word [] :=
  ⟨by simp, by simp, fun _ => .nil⟩

/-- Tokens that no node is on may stand between the others. -/
theorem within (linedUp : LinedUp sourceName word nodes) (isPart : word.Sublist wider) :
    LinedUp sourceName wider nodes where
  named := linedUp.named
  stands node member := by
    rcases linedUp.stands node member with ⟨token, isToken, sameLine⟩
    exact ⟨token, isPart.subset isToken, sameLine⟩
  inOrder inOrder := linedUp.inOrder (inOrder.sublist isPart)

theorem tail (linedUp : LinedUp sourceName word nodes) (token : Token) :
    LinedUp sourceName (token :: word) nodes :=
  linedUp.within (List.sublist_cons_self token word)

theorem left (linedUp : LinedUp sourceName word nodes) (further : List Token) :
    LinedUp sourceName (word ++ further) nodes :=
  linedUp.within (List.sublist_append_left word further)

theorem right (linedUp : LinedUp sourceName word nodes) (further : List Token) :
    LinedUp sourceName (further ++ word) nodes :=
  linedUp.within (List.sublist_append_right further word)

theorem le_of_mem_append (first : LinedUp sourceName word before)
    (second : LinedUp sourceName further after) (inOrder : Token.LinesInOrder (word ++ further))
    {earlier later : Node} (isEarlier : earlier ∈ before) (isLater : later ∈ after) :
    earlier.line ≤ later.line := by
  rcases first.stands earlier isEarlier with ⟨token, isToken, sameLine⟩
  rcases second.stands later isLater with ⟨token', isToken', sameLine'⟩
  rw [sameLine, sameLine']
  exact (List.pairwise_append.1 inOrder).2.2 token isToken token' isToken'

theorem append (first : LinedUp sourceName word before)
    (second : LinedUp sourceName further after) :
    LinedUp sourceName (word ++ further) (before ++ after) where
  named := List.forall_mem_append.2 ⟨first.named, second.named⟩
  stands := List.forall_mem_append.2 ⟨(first.left further).stands, (second.right word).stands⟩
  inOrder inOrder := by
    have parts := List.pairwise_append.1 inOrder
    exact (first.inOrder parts.1).append (second.inOrder parts.2.1)
      fun _ isEarlier _ isLater => first.le_of_mem_append second inOrder isEarlier isLater

theorem le_of_mem (linedUp : LinedUp sourceName (token :: word) nodes)
    (inOrder : Token.LinesInOrder (token :: word)) {node : Node} (member : node ∈ nodes) :
    token.line ≤ node.line := by
  rcases linedUp.stands node member with ⟨other, isToken, sameLine⟩
  rw [sameLine]
  rcases List.mem_cons.1 isToken with rfl | isLater
  · exact Nat.le_refl _
  · exact (List.pairwise_cons.1 inOrder).1 other isLater

/-- A node on the line of the first token comes before the others. -/
theorem head (linedUp : LinedUp sourceName (token :: word) nodes)
    (isFirst : root.origin = ⟨token.line, sourceName⟩) :
    LinedUp sourceName (token :: word) (root :: nodes) where
  named := List.forall_mem_cons.2 ⟨by rw [isFirst], linedUp.named⟩
  stands := List.forall_mem_cons.2
    ⟨⟨token, List.mem_cons_self, by rw [line, isFirst]⟩, linedUp.stands⟩
  inOrder inOrder := by
    refine (linedUp.inOrder inOrder).cons ?_
    intro later isLater
    rw [line, isFirst]
    exact linedUp.le_of_mem inOrder isLater

/-- A node on the line of the first node comes before it. -/
theorem again {node : Node} (linedUp : LinedUp sourceName word (node :: nodes))
    (sameLine : root.origin = ⟨node.line, sourceName⟩) :
    LinedUp sourceName word (root :: node :: nodes) where
  named := List.forall_mem_cons.2 ⟨by rw [sameLine], linedUp.named⟩
  stands := by
    have stands := (List.forall_mem_cons.1 linedUp.stands).1
    refine List.forall_mem_cons.2 ⟨?_, linedUp.stands⟩
    rwa [line, sameLine]
  inOrder inOrder := by
    have inOrder := linedUp.inOrder inOrder
    refine inOrder.cons ?_
    rw [line, sameLine]
    exact List.forall_mem_cons.2 ⟨Nat.le_refl _, fun later isLater => inOrder.le_of_mem isLater⟩

/-- A call block comes before its call and the defaults of its parameters, which are written
first. -/
theorem callBlock {origin : Origin} {call : Expr} {params : List Parameter} {body : List Stmt}
    (inParams : LinedUp sourceName word (ofParameters params))
    (inCall : LinedUp sourceName further (ofExpr call))
    (isFirst : origin = ⟨token.line, sourceName⟩) :
    LinedUp sourceName (token :: (word ++ further))
      (.stmt (.callBlock origin call params body) :: (ofExpr call ++ ofParameters params)) where
  named := by
    refine List.forall_mem_cons.2 ⟨?_, List.forall_mem_append.2 ⟨inCall.named, inParams.named⟩⟩
    rw [isFirst]
    rfl
  stands := by
    refine List.forall_mem_cons.2 ⟨⟨token, List.mem_cons_self, ?_⟩, List.forall_mem_append.2
      ⟨((inCall.right word).tail token).stands, ((inParams.left further).tail token).stands⟩⟩
    rw [isFirst]
    rfl
  inOrder inOrder := by
    have parts := List.pairwise_append.1 (List.pairwise_cons.1 inOrder).2
    apply (inCall.inOrder parts.2.1).callBlock (inParams.inOrder parts.1)
    · rw [isFirst]
      exact fun node member => ((inCall.right word).tail token).le_of_mem inOrder member
    · rw [isFirst]
      exact fun node member => ((inParams.left further).tail token).le_of_mem inOrder member

end LinedUp

end Node

end Stencil
