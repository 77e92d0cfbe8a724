import Stencil.Proofs.Expr.RoundTrip
import Stencil.Proofs.Stmt.Printing

/-!
# What does not depend on origins

The names that a tree reads are the same without the origins of its nodes, and so is the form of an
expression. A macro therefore catches the same surplus arguments, whatever lines its body stood on.
-/

namespace Stencil

namespace Expr

theorem isCall_forgetOrigins (expr : Expr) : expr.forgetOrigins.isCall = expr.isCall := by
  cases expr <;> rfl

theorem asName?_forgetOrigins (expr : Expr) : expr.forgetOrigins.asName? = expr.asName? := by
  cases expr <;> rfl

mutual

theorem nodes_forgetOrigins : (expr : Expr) →
    expr.forgetOrigins.nodes = expr.nodes.map forgetOrigins
  | name .. | string .. | integer .. | float .. | boolean .. | null .. => rfl
  | list _ items => by simp [forgetOrigins, nodes, nodesOfList_forgetItems items]
  | binary _ _ left right => by
      simp [forgetOrigins, nodes, nodes_forgetOrigins left, nodes_forgetOrigins right]
  | unary _ _ operand => by simp [forgetOrigins, nodes, nodes_forgetOrigins operand]
  | conditional _ condition value otherwise => by
      simp [forgetOrigins, nodes, nodes_forgetOrigins condition, nodes_forgetOrigins value,
        nodesOfOption_forgetOptional otherwise]
  | call _ callee args kwargs => by
      simp [forgetOrigins, nodes, nodes_forgetOrigins callee, nodesOfList_forgetItems args,
        nodesOfNamed_forgetNamed kwargs]
  | filter _ value _ args kwargs | test _ value _ args kwargs _ => by
      simp [forgetOrigins, nodes, nodes_forgetOrigins value, nodesOfList_forgetItems args,
        nodesOfNamed_forgetNamed kwargs]
  | attr _ value _ => by simp [forgetOrigins, nodes, nodes_forgetOrigins value]
  | item _ value index => by
      simp [forgetOrigins, nodes, nodes_forgetOrigins value, nodes_forgetOrigins index]
  | slice _ start stop step => by
      simp [forgetOrigins, nodes, nodesOfOption_forgetOptional start,
        nodesOfOption_forgetOptional stop, nodesOfOption_forgetOptional step]

theorem nodesOfList_forgetItems : (items : List Expr) →
    nodesOfList (forgetItems items) = (nodesOfList items).map forgetOrigins
  | [] => rfl
  | expr :: rest => by
      simp [forgetItems, nodesOfList, nodes_forgetOrigins expr, nodesOfList_forgetItems rest]

theorem nodesOfNamed_forgetNamed : (named : List (Named Expr)) →
    nodesOfNamed (forgetNamed named) = (nodesOfNamed named).map forgetOrigins
  | [] => rfl
  | ⟨_, expr⟩ :: rest => by
      simp [forgetNamed, nodesOfNamed, nodes_forgetOrigins expr, nodesOfNamed_forgetNamed rest]

theorem nodesOfOption_forgetOptional : (optional : Option Expr) →
    nodesOfOption (forgetOptional optional) = (nodesOfOption optional).map forgetOrigins
  | none => rfl
  | some expr => by simp [forgetOptional, nodesOfOption, nodes_forgetOrigins expr]

end

@[simp]
theorem names_forgetOrigins (expr : Expr) : expr.forgetOrigins.names = expr.names := by
  simp [names, nodes_forgetOrigins, List.filterMap_map, asName?_forgetOrigins]

@[simp]
theorem elim_names_forgetOptional (optional : Option Expr) :
    (forgetOptional optional).elim [] names = optional.elim [] names := by
  cases optional with
  | none => rfl
  | some expr => exact names_forgetOrigins expr

end Expr

namespace Stmt

open Stencil.Expr

theorem forgetBody_eq_map (body : List Stmt) : forgetBody body = body.map forgetOrigins := by
  induction body with
  | nil => rfl
  | cons stmt body ih => rw [forgetBody, ih, List.map_cons]

theorem forgetBranches_eq_map (elifs : List (Branch Stmt)) : forgetBranches elifs =
    elifs.map fun branch => ⟨branch.condition.forgetOrigins, forgetBody branch.body⟩ := by
  induction elifs with
  | nil => rfl
  | cons branch elifs ih => rw [forgetBranches, ih, List.map_cons]

mutual

theorem reads_forgetOrigins : (stmt : Stmt) → stmt.forgetOrigins.reads = stmt.reads
  | text .. | debug .. | continue_ .. | break_ .. => rfl
  | output _ expr | evaluate _ expr | parent _ expr | inclusion _ expr _ _ | importAs _ expr _ _
  | importNames _ expr _ _ | bareCall _ expr => names_forgetOrigins expr
  | forLoop _ _ iter guard _ body elseBody => by
      simp [forgetOrigins, reads, readsOfBody_forgetBody body, readsOfBody_forgetBody elseBody]
  | choice _ condition body elifs elseBody => by
      simp [forgetOrigins, reads, readsOfBody_forgetBody body, readsOfBody_forgetBody elseBody,
        readsOfBranches_forgetBranches elifs]
  | assign _ _ value body => by simp [forgetOrigins, reads, readsOfBody_forgetBody body]
  | block _ _ _ _ body => by simp [forgetOrigins, reads, readsOfBody_forgetBody body]
  | macro_ _ _ params _ _ _ => by
      simp [forgetOrigins, reads, List.flatMap_map, forgetParameter]
  | callBlock _ called params _ => by
      simp [forgetOrigins, reads, List.flatMap_map, forgetParameter]
  | scope _ assignments body => by
      simp [forgetOrigins, reads, forgetNamed_eq_map, List.flatMap_map,
        readsOfBody_forgetBody body]
  | filtered _ filters body => by
      simp [forgetOrigins, reads, List.flatMap_map, forgetFilter, forgetItems_eq_map,
        forgetNamed_eq_map, readsOfBody_forgetBody body]
  | autoescape _ enabled body => by simp [forgetOrigins, reads, readsOfBody_forgetBody body]
  | extension _ _ args body => by
      simp [forgetOrigins, reads, forgetItems_eq_map, List.flatMap_map, readsOfBody_forgetBody body]

theorem readsOfBody_forgetBody : (body : List Stmt) →
    readsOfBody (forgetBody body) = readsOfBody body
  | [] => rfl
  | stmt :: rest => by
      rw [forgetBody, readsOfBody, readsOfBody, reads_forgetOrigins stmt,
        readsOfBody_forgetBody rest]

theorem readsOfBranches_forgetBranches : (elifs : List (Branch Stmt)) →
    readsOfBranches (forgetBranches elifs) = readsOfBranches elifs
  | [] => rfl
  | ⟨condition, body⟩ :: rest => by
      rw [forgetBranches, readsOfBranches, readsOfBranches, names_forgetOrigins,
        readsOfBody_forgetBody body, readsOfBranches_forgetBranches rest]

end

/-- Bodies that differ in their origins only read the same names. -/
theorem bodyReads_eq {first second : List Stmt} (same : forgetBody first = forgetBody second)
    (name : String) : bodyReads first name = bodyReads second name := by
  rw [bodyReads, bodyReads, ← readsOfBody_forgetBody first, same, readsOfBody_forgetBody]

end Stmt

end Stencil
