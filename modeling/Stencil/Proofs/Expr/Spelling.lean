import Stencil.Proofs.Expr.RoundTrip
import Stencil.Proofs.Lexer.Spelling

/-!
# Tokens of written expressions

Every token of a written expression has a written form of its own, so that it is found again when
the text is cut.
-/

namespace Stencil.Expr

open Lexeme

theorem areSpelt_intercalate {between : Lexeme} {pieces : List (List Lexeme)}
    (isSpelt : between.IsSpelt) (each : ∀ piece ∈ pieces, AreSpelt piece) :
    AreSpelt ([between].intercalate pieces) := by
  cases pieces with
  | nil => exact areSpelt_nil
  | cons first others =>
      rw [List.forall_mem_cons] at each
      rw [intercalate_cons_eq_append, areSpelt_append]
      refine ⟨each.1, fun lexeme member => ?_⟩
      obtain ⟨piece, isPiece, member⟩ := List.mem_flatMap.1 member
      exact areSpelt_cons.2 ⟨isSpelt, each.2 piece isPiece⟩ lexeme member

theorem areSpelt_enclose {place level : Level} {lexemes : List Lexeme}
    (spelt : AreSpelt lexemes) : AreSpelt (place.enclose level lexemes) := by
  unfold Level.enclose
  split
  · rw [areSpelt_append, areSpelt_cons]
    exact ⟨⟨.mark (by decide), spelt⟩, areSpelt_single (.mark (by decide))⟩
  · exact spelt

theorem isWord_of_isFreeName {word : String} (free : isFreeName word = true) :
    isWord word.toList = true :=
  (Bool.and_eq_true_iff.1 free).1

theorem areSpelt_dotted {name : String}
    (areWords : ∀ part ∈ name.toList.splitOn '.', isWord part = true) :
    AreSpelt (dotted name) := by
  refine areSpelt_intercalate (.mark (by decide)) (List.forall_mem_map.2 fun part isPart => ?_)
  refine areSpelt_single (.word ?_)
  rw [String.toList_ofList]
  exact areWords part isPart

theorem isWord_of_isDottedName {name : String} (isName : isDottedName name = true) :
    ∀ part ∈ name.toList.splitOn '.', isWord part = true := by
  intro part isPart
  have free := List.all_eq_true.1 isName part isPart
  simpa using isWord_of_isFreeName free

theorem isWord_of_isTestName {name : String} (isName : isTestName name = true) :
    ∀ part ∈ name.toList.splitOn '.', isWord part = true := by
  rcases Bool.or_eq_true_iff.1 isName with isName | isLiteral
  · exact isWord_of_isDottedName isName
  · have words : ∀ name ∈ ["true", "false", "null", "in"],
        ∀ part ∈ name.toList.splitOn '.', isWord part = true := by
      decide
    exact words name (of_decide_eq_true isLiteral)

theorem areSpelt_arguments {args : List Expr} {kwargs : List (Named Expr)}
    (each : ∀ arg ∈ args, AreSpelt arg.lexemes)
    (free : ∀ kwarg ∈ kwargs, isFreeName kwarg.name = true)
    (eachNamed : ∀ kwarg ∈ kwargs, AreSpelt kwarg.value.lexemes) :
    AreSpelt (separated (itemLexemes args ++ namedLexemes kwargs)) := by
  rw [itemLexemes_eq_map, namedLexemes_eq_map]
  refine areSpelt_intercalate (.mark (by decide)) (List.forall_mem_append.2 ⟨?_, ?_⟩)
  · exact List.forall_mem_map.2 each
  · refine List.forall_mem_map.2 fun kwarg isKwarg => ?_
    rw [keywordLexemes, areSpelt_cons, areSpelt_cons]
    exact ⟨.word (isWord_of_isFreeName (free kwarg isKwarg)), .mark (by decide),
      eachNamed kwarg isKwarg⟩

theorem areSpelt_optional {before : List Lexeme} {optional : Option Expr}
    (spelt : AreSpelt before) (each : ∀ expr ∈ optional, AreSpelt expr.lexemes) :
    AreSpelt (optionalLexemes before optional) := by
  cases optional with
  | none => exact areSpelt_nil
  | some expr => exact areSpelt_append.2 ⟨spelt, each expr rfl⟩

theorem areSpelt_binaryOp (op : BinaryOp) : AreSpelt op.lexemes := by
  cases op with
  | in_ | and_ | or_ => exact areSpelt_single (.word (by decide))
  | notIn => exact areSpelt_cons.2 ⟨.word (by decide), areSpelt_single (.word (by decide))⟩
  | _ => exact areSpelt_single (.mark (by decide))

theorem isSpelt_unaryOp (op : UnaryOp) : op.lexeme.IsSpelt := by
  cases op with
  | not_ => exact .word (by decide)
  | _ => exact .mark (by decide)

/-- Every token of a written expression has a written form. -/
theorem Printable.areSpelt {expr : Expr} (printable : Printable expr) : AreSpelt expr.lexemes := by
  induction printable with
  | name origin free => exact areSpelt_single (.word (isWord_of_isFreeName free))
  | string origin value => exact areSpelt_single (.string value)
  | @integer origin value => exact areSpelt_single (.integer value)
  | boolean origin value => cases value <;> exact areSpelt_single (.word (by decide))
  | null => exact areSpelt_single (.word (by decide))
  | list origin each ih =>
      rw [lexemes, itemLexemes_eq_map, areSpelt_append, areSpelt_cons]
      refine ⟨⟨.mark (by decide), ?_⟩, areSpelt_single (.mark (by decide))⟩
      exact areSpelt_intercalate (.mark (by decide)) (List.forall_mem_map.2 ih)
  | binary origin op first second ihFirst ihSecond =>
      rw [lexemes, areSpelt_append, areSpelt_append]
      exact ⟨⟨areSpelt_enclose ihFirst, areSpelt_binaryOp op⟩, areSpelt_enclose ihSecond⟩
  | unary origin op inner ih =>
      exact areSpelt_cons.2 ⟨isSpelt_unaryOp op, areSpelt_enclose ih⟩
  | conditional origin first second third ihFirst ihSecond ihThird =>
      simp only [lexemes, areSpelt_append, areSpelt_cons, and_assoc]
      exact ⟨areSpelt_enclose ihSecond, .word (by decide), areSpelt_enclose ihFirst,
        areSpelt_optional (areSpelt_single (.word (by decide))) ihThird⟩
  | call origin called each free eachNamed ihCalled ihEach ihNamed =>
      simp only [lexemes, areSpelt_append, areSpelt_cons, and_assoc]
      exact ⟨areSpelt_enclose ihCalled, .mark (by decide),
        areSpelt_arguments ihEach free ihNamed, .mark (by decide), areSpelt_nil⟩
  | filter origin filtered isName each free eachNamed ihFiltered ihEach ihNamed =>
      simp only [lexemes, areSpelt_append, areSpelt_cons, and_assoc]
      exact ⟨areSpelt_enclose ihFiltered, .mark (by decide),
        areSpelt_dotted (isWord_of_isDottedName isName), .mark (by decide),
        areSpelt_arguments ihEach free ihNamed, .mark (by decide), areSpelt_nil⟩
  | test origin negated tested isName each free eachNamed ihTested ihEach ihNamed =>
      simp only [lexemes, areSpelt_append, areSpelt_cons, and_assoc]
      refine ⟨areSpelt_enclose ihTested, .word (by decide), ?_,
        areSpelt_dotted (isWord_of_isTestName isName), .mark (by decide),
        areSpelt_arguments ihEach free ihNamed, .mark (by decide), areSpelt_nil⟩
      cases negated with
      | false => exact areSpelt_nil
      | true => exact areSpelt_single (.word (by decide))
  | attr origin inner isName ih =>
      simp only [lexemes, areSpelt_append, areSpelt_cons]
      exact ⟨areSpelt_enclose ih, .mark (by decide), .word (Bool.and_eq_true_iff.1 isName).1,
        areSpelt_nil⟩
  | item origin inner second ih ihSecond =>
      simp only [lexemes, areSpelt_append, areSpelt_cons, and_assoc]
      exact ⟨areSpelt_enclose ih, .mark (by decide), ihSecond, .mark (by decide), areSpelt_nil⟩
  | sliced origin origin' inner first second third ih ihFirst ihSecond ihThird =>
      simp only [lexemes, areSpelt_append, areSpelt_cons, and_assoc]
      exact ⟨areSpelt_enclose ih, .mark (by decide), areSpelt_optional areSpelt_nil ihFirst,
        .mark (by decide), areSpelt_optional areSpelt_nil ihSecond,
        areSpelt_optional (areSpelt_single (.mark (by decide))) ihThird, .mark (by decide),
        areSpelt_nil⟩

end Stencil.Expr
