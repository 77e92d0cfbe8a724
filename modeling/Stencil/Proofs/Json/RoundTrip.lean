import Stencil.Proofs.Json.Stmts
import Stencil.Proofs.Stmt.WalkOrder

/-!
# Templates survive as JSON values

A template without floating-point numbers is read back from the value that is written for it,
whatever its nesting and its texts, as long as its integers and its lines have 64 bits. What is read
from any value is such a template, so that it can be written and read again.
-/

namespace Stencil

open Json

/-- What fits into words can be written, if it is no floating-point number. -/
theorem Node.InWord.writable {node : Node} (inWord : node.InWord)
    (noFloat : ∀ origin value, node ≠ .expr (.float origin value)) : node.Writable := by
  cases node with
  | stmt => exact inWord
  | expr expression =>
      refine ⟨?_, inWord⟩
      cases expression with
      | float origin value => exact absurd rfl (noFloat origin value)
      | _ => rfl

namespace Template

/-- No floating-point number stands in a template. -/
def HasNoFloat (template : Template) : Prop :=
  ∀ origin value, .expr (.float origin value) ∉ Stmt.walkBody template.body

/-- The integers in a template have 64 bits, and so have the lines of its nodes. -/
structure FitsWords (template : Template) : Prop where
  integers : ∀ origin value, .expr (.integer origin value) ∈ Stmt.walkBody template.body →
    -(Literal.maxInteger + 1 : Int) ≤ value ∧ value ≤ Literal.maxInteger
  lines : ∀ node ∈ Stmt.walkBody template.body, node.line ≤ maxWord

variable {writeFloat : Binary64 → Json} {template : Template}

theorem mem_walkBody_iff {body : List Stmt} {node : Node} :
    node ∈ Stmt.walkBody body ↔ ∃ stmt ∈ body, node ∈ stmt.walk := by
  rw [Node.walkBody_eq, Node.ofBody, List.flatMap_map, List.mem_flatMap]
  rfl

/-- A template is read back if its nodes can be. -/
theorem ofJson?_toJson (writable : ∀ node ∈ Stmt.walkBody template.body, node.Writable) :
    ofJson? (template.toJson writeFloat) = some template := by
  have body : list? Stmt.ofJson? (.array (Stmt.toJsonBody writeFloat template.body)) =
      some template.body := by
    rw [Stmt.toJsonBody_eq]
    refine list?_array fun stmt isStmt => Stmt.decode_toJson _ stmt ?_ (Nat.lt_succ_self _)
    exact fun node isMet => writable node (mem_walkBody_iff.mpr ⟨stmt, isStmt, isMet⟩)
  simp [ofJson?, toJson, record?, fields?, field?, body]

/-- The lines and the integers of a template that is read have 64 bits. -/
theorem ofJson?_yields (json : Json) :
    Yields (fun template => ∀ node ∈ Stmt.walkBody template.body, node.InWord) (ofJson? json) := by
  refine .bind fun given _ => ?_
  split
  · refine .bind fun _ isBody => .bind fun _ _ => .value fun node isMet => ?_
    obtain ⟨stmt, isStmt, isMet⟩ := mem_walkBody_iff.mp isMet
    obtain ⟨json, isRead⟩ := IsRead.of_items isBody isStmt
    exact Stmt.inWord_of_isRead ⟨json, isRead⟩ node isMet
  · exact .nothing

theorem HasNoFloat.ne_float (noFloat : template.HasNoFloat) {node : Node}
    (isMet : node ∈ Stmt.walkBody template.body) (origin : Origin) (value : Binary64) :
    node ≠ .expr (.float origin value) := by
  rintro rfl
  exact noFloat origin value isMet

theorem FitsWords.inWord (fits : template.FitsWords) {node : Node}
    (isMet : node ∈ Stmt.walkBody template.body) : node.InWord := by
  cases node with
  | stmt => exact fits.lines _ isMet
  | expr expression =>
      refine ⟨fits.lines _ isMet, ?_⟩
      rintro origin value rfl
      exact fits.integers origin value isMet

/-- A template without floating-point numbers is read back as it was from the value that is written
for it, and so is one that was itself read from a value of any kind. -/
theorem survives_writing (writeFloat : Binary64 → Json) :
    (∀ template : Template, template.HasNoFloat → template.FitsWords →
      ofJson? (template.toJson writeFloat) = some template) ∧
    ∀ json template, ofJson? json = some template → template.HasNoFloat →
      ofJson? (template.toJson writeFloat) = some template := by
  constructor
  · intro template noFloat fits
    exact ofJson?_toJson fun node isMet => (fits.inWord isMet).writable (noFloat.ne_float isMet)
  · intro json template isRead noFloat
    have inWords := ofJson?_yields json template isRead
    exact ofJson?_toJson fun node isMet => (inWords node isMet).writable (noFloat.ne_float isMet)

/-- A print tag with the least integer behind a text survives, and so does what is read from a
value with a field that means nothing and without a name. -/
theorem survives_writing_least : ∃ printed read : Template,
    printed.body.length = 2 ∧ ofJson? (printed.toJson .ofFloat) = some printed ∧
    ofJson? (.object [⟨"noise", .null⟩, ⟨"body", .array []⟩]) = some read ∧
    ofJson? (read.toJson .ofFloat) = some read := by
  let printed : Template := ⟨[.text ⟨1, none⟩ "é",
    .output ⟨2, none⟩ (.integer ⟨2, none⟩ (-9223372036854775808))], some "least"⟩
  have noFloat : printed.HasNoFloat := by
    intro origin value isMet
    simp [printed, Stmt.walkBody, Stmt.walk, Node.ofExpr, Expr.nodes] at isMet
  have fits : printed.FitsWords := by
    constructor
    · intro origin value isMet
      simp [printed, Stmt.walkBody, Stmt.walk, Node.ofExpr, Expr.nodes] at isMet
      rw [isMet.2]
      decide
    · intro node isMet
      simp [printed, Stmt.walkBody, Stmt.walk, Node.ofExpr, Expr.nodes] at isMet
      rcases isMet with rfl | rfl | rfl <;> decide
  have isRead : ofJson? (.object [⟨"noise", .null⟩, ⟨"body", .array []⟩]) = some ⟨[], none⟩ := rfl
  have noFloatRead : (Template.mk [] none).HasNoFloat := by
    intro origin value isMet
    cases isMet
  exact ⟨printed, ⟨[], none⟩, rfl, (survives_writing .ofFloat).1 printed noFloat fits, isRead,
    (survives_writing .ofFloat).2 _ _ isRead noFloatRead⟩

end Template

end Stencil
