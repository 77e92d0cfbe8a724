import Stencil.Profiles
import Stencil.Proofs.Stmt.Commented
import Stencil.Proofs.Template.Nesting

/-!
# Comments are invisible

Comments that are put in between the items of a template that is parsed without errors change
nothing: no error is met, and the tree is the same. The rounds of the one parse are set beside those
of the other one, which goes through rounds of its own for the comments that were put in.
-/

namespace Stencil

/-- The first token of an item is one that readers see. -/
theorem Item.exists_cons {item : List Token} (isItem : Item item) :
    ∃ token rest, item = token :: rest ∧ token.kind.isSignificant = true := by
  cases isItem with
  | data isData => exact ⟨_, _, rfl, by rw [isData]; rfl⟩
  | lineComment isComment => exact ⟨_, _, rfl, by rw [isComment]; rfl⟩
  | closed unfinished =>
      cases unfinished with
      | comment opens | raw opens | blockTag opens | printTag opens =>
          exact ⟨_, _, rfl, by rw [opens]; rfl⟩

namespace Template

variable {pair : Commentary} {progress : Progress} {place' : Place}

/-- Both sides find the same closing tag without a block. -/
theorem strayTag?_mirrors {region : Region} {token : Token} {low : Nat} {place : Place}
    (atToken : pair.AtToken region token low place place') :
    strayTag? {} pair.far place'.cursor = strayTag? {} pair.near place.cursor := by
  unfold strayTag?
  rw [atToken.get_near, atToken.get_far]
  split
  · next isTag => rw [atToken.get_word isTag]
  · rfl

variable [Limits]

section

variable {stream : TokenStream} (closed : stream.IsClosed) {rest : List Token} {place : Place}
  (notFatal : progress.fatal = none)

include closed notFatal

/-- A round for a comment leaves the tree as it is. -/
theorem parseAll_comment {comment : List Token} (isComment : IsComment comment)
    (ahead : stream.tokensFrom place.cursor = comment ++ rest) :
    parseAll {} stream { progress with place } = parseAll {} stream { progress with
      place := { place with cursor := place.cursor + comment.length } } := by
  have skipped := Stmt.parse_eq_of_comment closed isComment ahead
  rcases isComment.exists_cons with ⟨token, parts, rfl, isKind⟩
  rcases TokenStream.of_tokensFrom_eq_cons ahead with ⟨inside, isNext, _⟩
  have notStray : strayTag? {} stream place.cursor = none := by
    rw [strayTag?, isNext, if_neg]
    rcases isKind with isKind | isKind <;> simp [isKind]
  have notEnd : (stream.get place.cursor).kind ≠ .eof := by
    rw [isNext]
    rcases isKind with isKind | isKind <;> simp [isKind]
  have round : parseNext {} stream { progress with place } = _ :=
    parseNext_eq_of_ok notStray skipped
  rw [Option.toList_none, List.append_nil] at round
  rw [← round]
  exact parseAll_eq_of_further notEnd (by rw [round]; exact notFatal) (by rw [round]; simp) inside

theorem parseAll_comments {comments : List (List Token)}
    (each : ∀ comment ∈ comments, IsComment comment)
    (ahead : stream.tokensFrom place.cursor = comments.flatten ++ rest) :
    parseAll {} stream { progress with place } = parseAll {} stream { progress with
      place := { place with cursor := place.cursor + comments.flatten.length } } := by
  induction comments generalizing place with
  | nil => rfl
  | cons comment comments ih =>
      rw [List.flatten_cons, List.append_assoc] at ahead
      rw [parseAll_comment closed notFatal (each comment (by simp)) ahead,
        ih (fun other member => each other (by simp [member])) (TokenStream.tokensFrom_add ahead),
        List.flatten_cons, List.length_append, Nat.add_assoc]

end

/-- A run that meets no error runs on the side with more comments too, and to the same tree. -/
theorem Runs.mirrored {last : Progress} (runs : Runs pair.near progress last)
    (between : pair.Between 0 progress.place place') (notFatal : progress.fatal = none)
    (noErrors : last.errors = []) (notAborted : last.fatal = none) :
    ∃ place, parseAll {} pair.far { progress with place := place' } = { last with place } := by
  -- Each round of the near side is one of the far side, after rounds for the comments put in there.
  induction runs generalizing place' with
  | @atEnd progress isEnd =>
      rcases between.exists_item with ⟨comments, rest, each, ahead, region, token, atToken, _⟩
      rw [parseAll_comments pair.closed' notFatal each ahead, parseAll, if_pos]
      · exact ⟨_, rfl⟩
      · rw [atToken.get_near] at isEnd
        exact (congrArg Token.kind atToken.get_far).trans isEnd
  | aborted _ _ isFatal => exact absurd notAborted isFatal
  | @more progress next last notEnd round notFatalNext rest ih =>
      have noErrorsNext : next.errors = [] := by
        have earlier := rest.errors_stay
        rw [noErrors] at earlier
        exact List.prefix_nil.1 earlier
      rcases between.exists_item with ⟨comments, others, each, ahead, atItem⟩
      rw [parseAll_comments pair.closed' notFatal each ahead]
      cases round with
      | stray | recovered => simp at noErrorsNext
      | aborted => cases notFatalNext
      | @statement stmt after notStray outcome =>
          rcases Stmt.parse_mirrors 0 _ _ atItem stmt after outcome with
            ⟨after', outcome', further⟩
          rcases atItem with ⟨region, token, atToken, _⟩
          rw [← strayTag?_mirrors atToken] at notStray
          rw [atToken.get_near, ← atToken.get_far] at notEnd
          have moved := (Stmt.parse_moves pair.closed'
            { place' with cursor := place'.cursor + comments.flatten.length }).meets
          rw [outcome'] at moved
          rcases ih further notFatal noErrors notAborted with ⟨place, rest'⟩
          refine ⟨place, ?_⟩
          rw [parseAll_eq_of_further notEnd, parseNext_eq_of_ok notStray outcome']
          · exact rest'
          · rw [parseNext_eq_of_ok notStray outcome']
            exact notFatal
          · rw [parseNext_eq_of_ok notStray outcome']
            exact moved.1
          · exact moved.2

end Template

variable {items : List (List Token × List (List Token))} {rest : List Token}

/-- Nothing is open after some items. -/
theorem Region.isBetween_afterAll_items (each : ∀ entry ∈ items, Item entry.1) {region : Region}
    (isBetween : region.isBetween = true) :
    (region.afterAll (items.flatMap Prod.fst)).isBetween = true := by
  induction items generalizing region with
  | nil => exact isBetween
  | cons entry items ih =>
      rw [List.flatMap_cons, Region.afterAll_append]
      exact ih (fun other member => each other (by simp [member]))
        ((each entry (by simp)).isBetween_afterAll isBetween)

/-- Tokens after some items that lead to the end of a template end with it. -/
theorem Region.exists_last (each : ∀ entry ∈ items, Item entry.1)
    (shapes : Region.text.Shapes (items.flatMap Prod.fst ++ rest))
    (ends : Region.text.afterAll (items.flatMap Prod.fst ++ rest) = .ended) :
    ∃ before last, rest = before ++ [last] ∧ last.kind = .eof := by
  have isOpen : (Region.text.afterAll (items.flatMap Prod.fst)).isBetween = true :=
    Region.isBetween_afterAll_items each rfl
  rcases List.eq_nil_or_concat rest with rfl | ⟨before, last, rfl⟩
  · rw [List.append_nil] at ends
    rw [ends] at isOpen
    cases isOpen
  · rw [List.concat_eq_append, ← List.append_assoc] at shapes ends
    rw [Region.shapes_append] at shapes
    rw [Region.afterAll_append] at ends
    exact ⟨before, last, List.concat_eq_append, Region.eq_eof_of_after_eq_ended shapes.2.1 ends⟩

/-- The tokens of a text as readers see them, and the same tokens with comments after items. -/
theorem exists_commentary [Limits] {dialect : Dialect} {sourceName : Option String}
    {source : String} {result : Tokenization}
    (cut : tokenize dialect sourceName source = some result)
    (split : result.tokens = items.flatMap Prod.fst ++ rest)
    (each : ∀ entry ∈ items, Item entry.1 ∧ ∀ comment ∈ entry.2, IsComment comment) :
    ∃ pair : Commentary, pair.near = .ofTokens result.tokens ∧
      pair.far = .ofTokens (items.flatMap (fun entry => entry.1 ++ entry.2.flatten) ++ rest) ∧
      pair.Between 0 {} {} := by
  rcases Lexer.shapes_of_tokenize cut with ⟨shapes, ends⟩
  rw [split] at shapes ends ⊢
  have commented := Commented.of_items rfl shapes ends each
  rcases Region.exists_last (fun entry member => (each entry member).1) shapes ends with
    ⟨before, last, rfl, isEnd⟩
  have seen (front : List Token) :
      (TokenStream.ofTokens (front ++ (before ++ [last]))).tokensFrom 0 =
        (front ++ (before ++ [last])).filter (·.kind.isSignificant) := by
    simp [TokenStream.tokensFrom, TokenStream.ofTokens, Token.closed, isEnd]
  have named {front more : List Token} {token : Token} (isFirst : front = token :: more)
      (isSignificant : token.kind.isSignificant = true) :
      (TokenStream.ofTokens (front ++ (before ++ [last]))).sourceName = token.sourceName := by
    have ahead := seen front
    rw [isFirst, List.cons_append, List.filter_cons, if_pos isSignificant] at ahead
    rw [isFirst]
    exact congrArg Token.sourceName (TokenStream.of_tokensFrom_eq_cons ahead).2.1
  have sameName : (TokenStream.ofTokens (items.flatMap (fun entry => entry.1 ++ entry.2.flatten) ++
      (before ++ [last]))).sourceName =
      (TokenStream.ofTokens (items.flatMap Prod.fst ++ (before ++ [last]))).sourceName := by
    cases items with
    | nil => rfl
    | cons entry items =>
        rcases (each entry (by simp)).1.exists_cons with ⟨token, more, isItem, isSignificant⟩
        rw [named (by rw [List.flatMap_cons, isItem]; rfl) isSignificant,
          named (by rw [List.flatMap_cons, isItem]; rfl) isSignificant]
  refine ⟨⟨_, _, TokenStream.isClosed_ofTokens _, TokenStream.isClosed_ofTokens _, sameName⟩, rfl,
    rfl, .items (show Region.text.isBetween = true from rfl) ⟨rfl, Nat.zero_le _, ?_⟩⟩
  simp only [seen]
  exact commented

/-- Comments are invisible. A template that was cut from a text and is parsed without extensions and
without errors may have any number of comments put in after any of its items. No error is met then
either, and the tree is the same. -/
theorem comments_invisible [Limits] {dialect : Dialect} {sourceName : Option String}
    {source : String} {result : Tokenization}
    (cut : tokenize dialect sourceName source = some result)
    (split : result.tokens = items.flatMap Prod.fst ++ rest)
    (each : ∀ entry ∈ items, Item entry.1 ∧ ∀ comment ∈ entry.2, IsComment comment)
    {template : Template} (noErrors : (Template.parse {} (.ofTokens result.tokens)).errors = [])
    (parsed : (Template.parse {} (.ofTokens result.tokens)).result (.ofTokens result.tokens) =
      .ok template) :
    let commented := TokenStream.ofTokens
      (items.flatMap (fun entry => entry.1 ++ entry.2.flatten) ++ rest)
    (Template.parse {} commented).errors = [] ∧
      (Template.parse {} commented).result commented = .ok template := by
  rcases exists_commentary cut split each with ⟨pair, isNear, isFar, between⟩
  intro commented
  rw [← isNear] at noErrors parsed
  rw [show commented = pair.far from isFar.symm]
  rcases Template.of_result_eq_ok parsed with ⟨notFatal, rfl⟩
  have runs : Template.Runs pair.near {} (Template.parse {} pair.near) :=
    Template.Reached.start.runs pair.closed rfl
  rcases runs.mirrored between rfl noErrors notFatal with ⟨place, same⟩
  have same : Template.parse {} pair.far = { Template.parse {} pair.near with place } := same
  rw [same, ← pair.sourceName]
  exact ⟨noErrors, Template.result_eq_ok _ notFatal⟩

set_option maxRecDepth 10000 in
/-- Comments in both branches of a choice, before its `else` and `endif` tags and after it. -/
theorem comments_invisible_in_branches : ∃ (result : Tokenization)
      (items : List (List Token × List (List Token))) (rest : List Token) (template : Template),
    tokenize {} none "\x7b% if a %\x7dx\x7b% else %\x7dy\x7b% endif %\x7d" = some result ∧
    result.tokens = items.flatMap Prod.fst ++ rest ∧ items.length = 5 ∧
    (∀ entry ∈ items, Item entry.1 ∧ entry.2.length = 2 ∧
      ∀ comment ∈ entry.2, IsComment comment) ∧
    (Template.parse {} (.ofTokens result.tokens)).errors = [] ∧
    (Template.parse {} (.ofTokens result.tokens)).result (.ofTokens result.tokens) =
      .ok template ∧ template.body.length = 1 ∧
    let commented := TokenStream.ofTokens
      (items.flatMap (fun entry => entry.1 ++ entry.2.flatten) ++ rest)
    (Template.parse {} commented).errors = [] ∧
      (Template.parse {} commented).result commented = .ok template := by
  let comments : List (List Token) := [Token.layOut none .start [(.lineComment, "## c")],
    Token.layOut none .start [(.commentBegin, "\x7b#"), (.comment, " c "), (.commentEnd, "#\x7d")]]
  let tokens := Token.layOut none .start [(.blockBegin, "\x7b%"), (.whitespace, " "),
    (.keyword .if_, "if"), (.whitespace, " "), (.name, "a"), (.whitespace, " "),
    (.blockEnd, "%\x7d"), (.data, "x"), (.blockBegin, "\x7b%"), (.whitespace, " "),
    (.keyword .else_, "else"), (.whitespace, " "), (.blockEnd, "%\x7d"), (.data, "y"),
    (.blockBegin, "\x7b%"), (.whitespace, " "), (.keyword .endIf, "endif"), (.whitespace, " "),
    (.blockEnd, "%\x7d"), (.eof, "")]
  let items := [(tokens.take 7, comments), ((tokens.drop 7).take 1, comments),
    ((tokens.drop 8).take 5, comments), ((tokens.drop 13).take 1, comments),
    ((tokens.drop 14).take 5, comments)]
  have evaluated : (tokenize {} none
      "\x7b% if a %\x7dx\x7b% else %\x7dy\x7b% endif %\x7d").map (·.tokens) = some tokens := by
    cbv
  rcases Option.map_eq_some_iff.1 evaluated with ⟨result, cut, sameTokens⟩
  have tagOf (parts : List Token) (opening closing : Token) (opens : opening.kind = .blockBegin)
      (inner : parts.all (·.kind.isInner) = true) (closes : closing.kind = .blockEnd) :
      Item (opening :: parts ++ [closing]) :=
    .closed (.blockTag opens fun part member =>
      .of_isInner (List.all_eq_true.1 inner part member)) closes
  have areComments : ∀ comment ∈ comments, IsComment comment := by
    simp only [comments, List.forall_mem_cons, List.not_mem_nil, false_implies, implies_true,
      and_true]
    exact ⟨.line rfl, .block rfl rfl rfl⟩
  have areItems : ∀ entry ∈ items, Item entry.1 ∧ entry.2 = comments := by
    simp only [items, List.forall_mem_cons, List.not_mem_nil, false_implies, implies_true,
      and_true]
    exact ⟨tagOf ((tokens.drop 1).take 5) tokens[0] tokens[6] rfl rfl rfl, .data rfl,
      tagOf ((tokens.drop 9).take 3) tokens[8] tokens[12] rfl rfl rfl, .data rfl,
      tagOf ((tokens.drop 15).take 3) tokens[14] tokens[18] rfl rfl rfl⟩
  have each : ∀ entry ∈ items, Item entry.1 ∧ ∀ comment ∈ entry.2, IsComment comment := by
    intro entry member
    rw [(areItems entry member).2]
    exact ⟨(areItems entry member).1, areComments⟩
  obtain ⟨notFatal, noErrors, oneStmt⟩ : (Template.parse {} (.ofTokens tokens)).fatal = none ∧
      (Template.parse {} (.ofTokens tokens)).errors = [] ∧
      (Template.parse {} (.ofTokens tokens)).body.length = 1 := by
    cbv
  have parsed := Template.result_eq_ok (.ofTokens tokens) notFatal
  rw [← sameTokens] at noErrors oneStmt parsed
  have split : result.tokens = items.flatMap Prod.fst ++ tokens.drop 19 := sameTokens
  refine ⟨result, items, tokens.drop 19, _, cut, split, rfl, fun entry member => ?_, noErrors,
    parsed, oneStmt, comments_invisible cut split each noErrors parsed⟩
  rw [(areItems entry member).2]
  exact ⟨(areItems entry member).1, rfl, areComments⟩

end Stencil
