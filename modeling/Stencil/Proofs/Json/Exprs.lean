import Stencil.Proofs.Json.Records
import Stencil.Proofs.Stmt.Names

/-!
# Written expressions

An expression is read back from the value that is written for it, one level at a time: first as far
as its parts are, then as deep as the value goes. The other way around, the parts of an expression
that is read were read themselves, and its integers and lines have 64 bits.
-/

namespace Stencil.Expr

open Json

variable {writeFloat : Binary64 → Json}

theorem toJsonList_eq (items : List Expr) :
    toJsonList writeFloat items = items.map (toJson writeFloat) := by
  induction items with
  | nil => rfl
  | cons first rest ih => rw [toJsonList, ih, List.map_cons]

theorem toJsonNamed_eq (named : List (Named Expr)) :
    toJsonNamed writeFloat named =
      named.map fun entry => ⟨entry.name, toJson writeFloat entry.value⟩ := by
  induction named with
  | nil => rfl
  | cons first rest ih => rw [toJsonNamed, ih, List.map_cons]

theorem toJsonOption_eq (optional : Option Expr) :
    toJsonOption writeFloat optional = optional.elim .null (toJson writeFloat) := by
  cases optional <;> rfl

theorem toJson_ne_null (expr : Expr) : toJson writeFloat expr ≠ .null := by
  cases expr <;> exact Json.noConfusion

/-- Whether an expression is a floating-point number. -/
def isFloat : Expr → Bool
  | float .. => true
  | _ => false

/-- The line of an expression has 64 bits, and so has the integer that it may be. -/
structure InWord (expr : Expr) : Prop where
  line_le : expr.line ≤ maxWord
  integer_fits : ∀ origin value, expr = integer origin value →
    -(Literal.maxInteger + 1 : Int) ≤ value ∧ value ≤ Literal.maxInteger

variable {inner : Json → Option Expr}

/-- An expression is read back if its parts are. -/
theorem decodeWith_toJson (expr : Expr) (notFloat : expr.isFloat = false)
    (inWord : expr.InWord)
    (readsBack : ∀ part, IsPart part expr → inner (toJson writeFloat part) = some part) :
    decodeWith inner (toJson writeFloat expr) = some expr := by
  have list (items : List Expr) (areParts : ∀ item ∈ items, IsPart item expr) :
      list? inner (.array (toJsonList writeFloat items)) = some items := by
    rw [toJsonList_eq]
    exact list?_array fun item isItem => readsBack item (areParts item isItem)
  have named (entries : List (Named Expr)) (areParts : ∀ entry ∈ entries, IsPart entry.value expr) :
      list? (named? inner) (.ofNamed (toJsonNamed writeFloat entries)) = some entries := by
    rw [toJsonNamed_eq]
    exact list?_ofNamed fun entry isEntry => readsBack entry.value (areParts entry isEntry)
  have option (optional : Option Expr) (isPart : ∀ part, optional = some part → IsPart part expr) :
      optional? inner (some (toJsonOption writeFloat optional)) = some optional := by
    rw [toJsonOption_eq]
    exact optional?_elim toJson_ne_null fun part isThere => readsBack part (isPart part isThere)
  have isNode := node?_node inWord.line_le
  cases expr
  all_goals
    rw [toJson, decodeWith]
    dsimp only [origin] at isNode
    rw [isNode]
    dsimp only [Option.bind_eq_bind, Option.bind_some, form?_form, form?_string]
  case float => exact Bool.noConfusion notFloat
  case integer origin value =>
    have isRead : integer? (.number (.integer value)) = some value :=
      if_pos (inWord.integer_fits origin value rfl)
    simp [isRead]
  case name | string | boolean => simp
  case null => simp [isBare]
  case list items => simp [list items fun _ => .item]
  case binary left right => simp [fields?, field?, readsBack left .left, readsBack right .right]
  case unary operand => simp [fields?, field?, readsBack operand .operand]
  case conditional condition value otherwise =>
    simp [fields?, field?, readsBack condition .condition, readsBack value .value,
      option otherwise (by rintro _ rfl; exact .otherwise)]
  case call callee args kwargs =>
    simp [fields?, field?, readsBack callee .callee, list args fun _ => .arg,
      named kwargs fun _ => .kwarg]
  case filter value _ args kwargs =>
    simp [fields?, field?, readsBack value .filtered, list args fun _ => .filterArg,
      named kwargs fun _ => .filterKwarg]
  case test value _ args kwargs _ =>
    simp [fields?, field?, readsBack value .tested, list args fun _ => .testArg,
      named kwargs fun _ => .testKwarg]
  case attr value _ => simp [fields?, field?, readsBack value .owner]
  case item value index =>
    simp [fields?, field?, readsBack value .container, readsBack index .index]
  case slice start stop step =>
    simp [fields?, field?, option start (by rintro _ rfl; exact .start),
      option stop (by rintro _ rfl; exact .stop), option step (by rintro _ rfl; exact .step)]

/-- What is known of an expression that is read: its line and its integer have 64 bits, and its
parts were read as well. -/
structure IsReadWith (inner : Json → Option Expr) (whole : Expr) : Prop where
  inWord : whole.InWord
  parts : ∀ part, IsPart part whole → IsRead inner part

/-- An expression without parts is read from nothing else. -/
theorem IsReadWith.leaf {whole : Expr} (inWord : whole.InWord)
    (noParts : ∀ part, ¬ IsPart part whole) : IsReadWith inner whole :=
  ⟨inWord, fun part isPart => absurd isPart (noParts part)⟩

/-- Whatever is read has its parts from the reader of expressions inside. -/
theorem decodeWith_yields (json : Json) :
    Yields (IsReadWith inner) (decodeWith inner json) := by
  rw [decodeWith]
  refine .bind fun ⟨form, origin⟩ isNode => .bind fun ⟨label, parts⟩ _ => ?_
  have fits : origin.line ≤ maxWord := node?_yields json _ isNode
  dsimp only
  split
  · split
    · exact .value (.leaf ⟨fits, nofun⟩ nofun)
    · exact .nothing
  refine .bind fun parts _ => ?_
  split
  case h_1 | h_2 | h_4 | h_5 => exact .bind fun _ _ => .value (.leaf ⟨fits, nofun⟩ nofun)
  case h_3 =>
    refine .bind fun value isValue => .value (.leaf ⟨fits, ?_⟩ nofun)
    rintro _ _ ⟨⟩
    exact integer?_yields parts value isValue
  case h_6 =>
    exact .bind fun items areRead => .value
      ⟨⟨fits, nofun⟩, fun | _, .item isItem => .of_list ⟨_, areRead⟩ _ isItem⟩
  case h_16 => exact .nothing
  all_goals
    refine .bind fun given _ => ?_
    split
    case h_2 => exact .nothing
  · -- binary
    exact .bind fun _ _ => .bind fun _ isLeft => .bind fun _ isRight => .value
      ⟨⟨fits, nofun⟩, fun | _, .left => .of_bind isLeft | _, .right => .of_bind isRight⟩
  · -- unary
    exact .bind fun _ _ => .bind fun _ isOperand => .value
      ⟨⟨fits, nofun⟩, fun | _, .operand => .of_bind isOperand⟩
  · -- conditional
    exact .bind fun _ isCondition => .bind fun _ isValue => .bind fun _ isOtherwise => .value
      ⟨⟨fits, nofun⟩, fun
        | _, .condition => .of_bind isCondition
        | _, .value => .of_bind isValue
        | _, .otherwise => .of_optional isOtherwise⟩
  · -- call
    exact .bind fun _ isCallee => .bind fun _ areArgs => .bind fun _ areKwargs => .value
      ⟨⟨fits, nofun⟩, fun
        | _, .callee => .of_bind isCallee
        | _, .arg isArg => .of_items areArgs isArg
        | _, .kwarg isKwarg => .of_named (.of_items areKwargs isKwarg)⟩
  · -- filter
    exact .bind fun _ isValue => .bind fun _ _ => .bind fun _ areArgs => .bind fun _ areKwargs =>
      .value ⟨⟨fits, nofun⟩, fun
        | _, .filtered => .of_bind isValue
        | _, .filterArg isArg => .of_items areArgs isArg
        | _, .filterKwarg isKwarg => .of_named (.of_items areKwargs isKwarg)⟩
  · -- test
    exact .bind fun _ isValue => .bind fun _ _ => .bind fun _ areArgs => .bind fun _ areKwargs =>
      .bind fun _ _ => .value ⟨⟨fits, nofun⟩, fun
        | _, .tested => .of_bind isValue
        | _, .testArg isArg => .of_items areArgs isArg
        | _, .testKwarg isKwarg => .of_named (.of_items areKwargs isKwarg)⟩
  · -- attr
    exact .bind fun _ isValue => .bind fun _ _ => .value
      ⟨⟨fits, nofun⟩, fun | _, .owner => .of_bind isValue⟩
  · -- item
    exact .bind fun _ isValue => .bind fun _ isIndex => .value
      ⟨⟨fits, nofun⟩, fun | _, .container => .of_bind isValue | _, .index => .of_bind isIndex⟩
  · -- slice
    exact .bind fun _ isStart => .bind fun _ isStop => .bind fun _ isStep => .value
      ⟨⟨fits, nofun⟩, fun
        | _, .start => .of_optional isStart
        | _, .stop => .of_optional isStop
        | _, .step => .of_optional isStep⟩

/-! ### Whole trees -/

variable (writeFloat)

theorem depth_le_of_mem {items : List Expr} {item : Expr} (isItem : item ∈ items) :
    (toJson writeFloat item).depth ≤ depthOfList (toJsonList writeFloat items) := by
  rw [toJsonList_eq]
  exact depth_le_depthOfList (List.mem_map_of_mem isItem)

theorem depth_lt_of_mem {named : List (Named Expr)} {entry : Named Expr} (isEntry : entry ∈ named) :
    (toJson writeFloat entry.value).depth < (ofNamed (toJsonNamed writeFloat named)).depth := by
  have isWritten : ⟨entry.name, toJson writeFloat entry.value⟩ ∈ toJsonNamed writeFloat named := by
    rw [toJsonNamed_eq]
    exact List.mem_map_of_mem isEntry
  exact depth_lt_ofNamed isWritten

/-- A part is less deep than the expression it is in. -/
theorem depth_lt_of_isPart {part whole : Expr} (isPart : IsPart part whole) :
    (toJson writeFloat part).depth < (toJson writeFloat whole).depth := by
  cases isPart with
  | item isItem | arg isItem | filterArg isItem | testArg isItem =>
    have below := depth_le_of_mem writeFloat isItem
    simp [toJson, depth, depthOfFields]
    omega
  | kwarg isEntry | filterKwarg isEntry | testKwarg isEntry =>
    have below := depth_lt_of_mem writeFloat isEntry
    simp [toJson, depth, depthOfFields]
    omega
  | _ =>
    simp [toJson, toJsonOption_eq, depth, depthOfFields]
    omega

variable {writeFloat}

/-- An expression is read back from the value that is written for it, if that value is not too
deep. -/
theorem decode_toJson (levels : Nat) (expr : Expr)
    (writable : ∀ part ∈ expr.nodes, part.isFloat = false ∧ part.InWord)
    (notDeep : (toJson writeFloat expr).depth < levels) :
    decode levels (toJson writeFloat expr) = some expr := by
  induction levels generalizing expr with
  | zero => exact absurd notDeep (Nat.not_lt_zero _)
  | succ levels ih =>
    obtain ⟨notFloat, inWord⟩ := writable expr (self_mem_nodes expr)
    refine decodeWith_toJson expr notFloat inWord fun part isPart => ?_
    have below := depth_lt_of_isPart writeFloat isPart
    exact ih part (fun node isNode => writable node (isPart.nodes_subset isNode)) (by omega)

/-- An expression is read back from the value that is written for it. -/
theorem ofJson?_toJson {expr : Expr}
    (writable : ∀ part ∈ expr.nodes, part.isFloat = false ∧ part.InWord) :
    ofJson? (toJson writeFloat expr) = some expr :=
  decode_toJson _ expr writable (Nat.lt_succ_self _)

/-- The lines and the integers of an expression that is read have 64 bits. -/
theorem inWord_of_isRead {levels : Nat} {whole : Expr} (isRead : IsRead (decode levels) whole) :
    ∀ part ∈ whole.nodes, part.InWord := by
  induction levels generalizing whole with
  | zero =>
    obtain ⟨_, isRead⟩ := isRead
    cases isRead
  | succ levels ih =>
    obtain ⟨json, isRead⟩ := isRead
    obtain ⟨inWord, areRead⟩ := decodeWith_yields json whole isRead
    intro node isNode
    rcases (inside_of_mem_nodes whole node isNode).cases_tail with rfl | ⟨part, inside, isPart⟩
    · exact inWord
    · exact ih (areRead part isPart) node (Inside.mem_nodes inside)

end Stencil.Expr
