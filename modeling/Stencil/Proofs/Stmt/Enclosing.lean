import Stencil.Proofs.Stmt.Grammar

/-!
# Statements around statements

A statement that stands in a body of another one is derived one construct deeper, and there is such
a derivation only where a level of nesting is left. So a derivation of a statement has derivations
of all statements inside of it, each as much deeper as there are statements around it.
-/

namespace Stencil.Stmt

/-- A number of statements, of which `outer` is the outermost, stand around `inner`. -/
inductive Encloses (outer : Stmt) : Nat → Stmt → Prop where
  | self : Encloses outer 0 outer
  | inside {count : Nat} {middle inner : Stmt} {body : List Stmt}
      (around : Encloses outer count middle) (isBody : body ∈ middle.bodies)
      (isChild : inner ∈ body) : Encloses outer (count + 1) inner

/-- A statement around which stands another one, and further ones around that. -/
theorem Encloses.outside {outer middle inner : Stmt} {body : List Stmt} {count : Nat}
    (isBody : body ∈ outer.bodies) (isChild : middle ∈ body)
    (inside : Encloses middle count inner) : Encloses outer (count + 1) inner := by
  induction inside with
  | self => exact .inside .self isBody isChild
  | inside _ isBody isChild ih => exact .inside ih isBody isChild

/-- The statements of a flattened statement are those that stand inside of it. -/
theorem exists_encloses_of_mem_flatten {outer inner : Stmt} (isPart : inner ∈ outer.flatten) :
    ∃ count, Encloses outer count inner := by
  generalize isSize : sizeOf outer = size
  induction size using Nat.strongRecOn generalizing outer with
  | ind size ih =>
      rw [flatten_eq, List.mem_cons] at isPart
      rcases isPart with rfl | isPart
      · exact ⟨0, .self⟩
      · simp only [List.mem_flatMap] at isPart
        rcases isPart with ⟨body, isBody, child, isChild, isPart⟩
        have smaller := sizeOf_lt_of_mem_bodies isBody isChild
        rcases ih _ (isSize ▸ smaller) isPart rfl with ⟨count, inside⟩
        exact ⟨count + 1, .outside isBody isChild inside⟩

variable [Limits] {stream : TokenStream} {depth start stop : Nat}

/-- A statement is derived somewhere in a stream, with a number of constructs open. -/
def DerivedAt (stream : TokenStream) (depth : Nat) (stmt : Stmt) : Prop :=
  ∃ start stop, Derived stream depth start (.statement (some stmt)) stop

/-- The statements that a part consists of are derived as deep as the part, and those in the bodies
of a statement one construct deeper. -/
def Part.Rooted (stream : TokenStream) (depth : Nat) : Part → Prop
  | .statement stmt => ∀ whole, stmt = some whole → ∀ body ∈ whole.bodies, ∀ child ∈ body,
      depth < maxDepth ∧ DerivedAt stream (depth + 1) child
  | .body _ stmts _ => ∀ child ∈ stmts, DerivedAt stream depth child
  | .branches _ elifs _ => ∀ branch ∈ elifs, ∀ child ∈ branch.body, DerivedAt stream depth child
  | .otherwise _ _ stmts => ∀ child ∈ stmts, DerivedAt stream depth child

theorem Derived.rooted {part : Part} (derived : Derived stream depth start part stop) :
    part.Rooted stream depth := by
  induction derived with
  | text | output | raw | continue_ | break_ | debug | evaluate | parent | inclusion | importAs
  | importNames | bareCall =>
      rintro whole ⟨⟩ body isBody
      simp [bodies] at isBody
  | comment =>
      rintro whole ⟨⟩
  | assign =>
      rintro whole ⟨⟩ body isBody child isChild
      simp only [bodies, List.mem_singleton] at isBody
      subst isBody
      simp at isChild
  | capture room _ _ _ _ _ ih | block room _ _ _ _ _ ih | macro_ room _ _ _ _ _ ih
  | callBlock room _ _ _ _ _ _ _ ih | scope room _ _ _ _ ih | filtered room _ _ _ _ ih
  | autoescape room _ _ _ _ ih =>
      rintro whole ⟨⟩ body isBody child isChild
      simp only [bodies, List.mem_singleton] at isBody
      subst isBody
      exact ⟨room, ih child isChild⟩
  | forLoop room _ _ _ _ _ _ _ _ _ _ ihBody ihRest =>
      rintro whole ⟨⟩ body isBody child isChild
      simp only [bodies, List.mem_cons, List.not_mem_nil, or_false] at isBody
      rcases isBody with rfl | rfl
      · exact ⟨room, ihBody child isChild⟩
      · exact ⟨room, ihRest child isChild⟩
  | choice room _ _ _ _ _ _ ihBody ihBranches ihRest =>
      rintro whole ⟨⟩ body isBody child isChild
      simp only [bodies, List.mem_cons, List.mem_append, List.mem_map, List.not_mem_nil,
        or_false] at isBody
      rcases isBody with rfl | ⟨branch, isBranch, rfl⟩ | rfl
      · exact ⟨room, ihBody child isChild⟩
      · exact ⟨room, ihBranches branch isBranch child isChild⟩
      · exact ⟨room, ihRest child isChild⟩
  | ended | noElse =>
      intro child isChild
      simp at isChild
  | noBranch =>
      intro branch isBranch
      simp at isBranch
  | @more depth start middle stop enders stmt stmts ender first rest ihFirst ihRest =>
      intro child isChild
      rw [List.mem_append, Option.mem_toList] at isChild
      rcases isChild with rfl | isChild
      · exact ⟨start, middle, first⟩
      · exact ihRest child isChild
  | branch _ _ _ _ ihBody ihRest =>
      intro other isBranch child isChild
      rcases List.mem_cons.1 isBranch with rfl | isBranch
      · exact ihBody child isChild
      · exact ihRest other isBranch child isChild
  | else_ _ _ ih => exact ih

/-- A statement is derived as much deeper than one around it as there are statements around it. -/
theorem DerivedAt.encloses {outer inner : Stmt} {count : Nat}
    (derived : DerivedAt stream depth outer) (bounded : depth ≤ maxDepth)
    (inside : Encloses outer count inner) :
    DerivedAt stream (depth + count) inner ∧ depth + count ≤ maxDepth := by
  induction inside with
  | self => exact ⟨derived, bounded⟩
  | inside _ isBody isChild ih =>
      rcases ih.1 with ⟨start, stop, around⟩
      rcases around.rooted _ rfl _ isBody _ isChild with ⟨room, child⟩
      exact ⟨child, room⟩

end Stencil.Stmt
