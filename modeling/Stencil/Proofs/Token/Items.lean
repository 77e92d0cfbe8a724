import Stencil.Proofs.Token.Region

/-!
# The items of a template

The tokens of a template are a sequence of items: runs of plain text, line comments, comments, raw
blocks and tags. An item that is opened by a token and closed by another one can be cut short by
the end of the template; it is then unfinished.

Regions describe the same sequences token by token. A list of tokens of which each is allowed by the
region before it is split into items by one walk over the list: a token begins an item, goes on with
the one that is open, or closes it.
-/

namespace Stencil

namespace Token

/-- Punctuation marks. -/
def Kind.isPunctuation (kind : Kind) : Bool :=
  kind ∈ [.dot, .comma, .colon, .pipe, .lparen, .rparen, .lbracket, .rbracket, .lbrace, .rbrace]

/-- A token may stand inside a tag. -/
inductive IsPart (token : Token) : Prop where
  | blank (isBlank : token.kind = .whitespace)
  | literal (isLiteral : token.kind.isLiteral = true)
  | name (isName : token.kind = .name)
  | keyword (word : Keyword) (isKeyword : token.kind = .keyword word)
  | operator (isOperator : token.kind.isOperator = true)
  | punctuation (isMark : token.kind.isPunctuation = true)
  /-- A character that no token begins with. -/
  | stray (isData : token.kind = .data) (oneChar : token.text.length = 1)

theorem IsPart.of_isInner {token : Token} (inner : token.kind.isInner = true) : token.IsPart := by
  cases isKind : token.kind with
  | whitespace => exact .blank isKind
  | name => exact .name isKind
  | keyword word => exact .keyword word isKind
  | string | integer | float | boolean | null => exact .literal (by rw [isKind]; rfl)
  | dot | comma | colon | pipe | lparen | rparen | lbracket | rbracket | lbrace | rbrace =>
      exact .punctuation (by rw [isKind]; rfl)
  | add | sub | mul | div | floorDiv | mod | pow | tilde | eq | ne | lt | le | gt | ge | assign =>
      exact .operator (by rw [isKind]; rfl)
  | _ => simp [isKind, Kind.isInner] at inner

end Token

/-- The tokens of an item up to its last one, and the kind of the last one. -/
inductive Unfinished : List Token → Token.Kind → Prop where
  | comment {opening body : Token} (opens : opening.kind = .commentBegin)
      (isBody : body.kind = .comment) : Unfinished [opening, body] .commentEnd
  | raw {opening : Token} {content : Option Token} (opens : opening.kind = .rawBegin)
      (isData : ∀ token ∈ content, token.kind = .data) :
      Unfinished (opening :: content.toList) .rawEnd
  | blockTag {opening : Token} {parts : List Token} (opens : opening.kind = .blockBegin)
      (each : ∀ part ∈ parts, part.IsPart) : Unfinished (opening :: parts) .blockEnd
  | printTag {opening : Token} {parts : List Token} (opens : opening.kind = .variableBegin)
      (each : ∀ part ∈ parts, part.IsPart) : Unfinished (opening :: parts) .variableEnd

/-- The tokens of one item. -/
inductive Item : List Token → Prop where
  | data {token : Token} (isData : token.kind = .data) : Item [token]
  | lineComment {token : Token} (isComment : token.kind = .lineComment) : Item [token]
  | closed {tokens : List Token} {closing : Token} {kind : Token.Kind}
      (unfinished : Unfinished tokens kind) (closes : closing.kind = kind) :
      Item (tokens ++ [closing])

/-- Whether an item is a run of plain text. -/
def Item.isData (item : List Token) : Bool :=
  item.map (·.kind) = [.data]

/-- No two runs of plain text stand next to each other. -/
def Item.Apart (items : List (List Token)) : Prop :=
  items.IsChain fun first second => ¬(isData first = true ∧ isData second = true)

/-- The characters in an item that no token of a tag begins with. -/
def Item.strays : List Token → List Token
  | [] => []
  | opening :: parts =>
    if opening.kind ∈ [.blockBegin, .variableBegin] then parts.filter (·.kind = .data) else []

/-- The kind of the token that closes what a token opens. -/
def Token.Kind.closing? : Token.Kind → Option Token.Kind
  | .blockBegin => some .blockEnd
  | .variableBegin => some .variableEnd
  | .commentBegin => some .commentEnd
  | .rawBegin => some .rawEnd
  | _ => none

theorem Unfinished.closing?_head? {tokens : List Token} {kind : Token.Kind}
    (unfinished : Unfinished tokens kind) :
    tokens.head?.bind (·.kind.closing?) = some kind := by
  cases unfinished <;> simp [Token.Kind.closing?, *]

theorem Unfinished.isData_append {tokens : List Token} {kind : Token.Kind}
    (unfinished : Unfinished tokens kind) (token : Token) :
    Item.isData (tokens ++ [token]) = false := by
  cases unfinished <;> simp [Item.isData]

namespace Region

/-- The data tokens of a template that stand inside tags, in order. -/
def strays : Region → List Token → List Token
  | _, [] => []
  | region, token :: tokens =>
    (if token.kind = .data ∧ region.isTag = true then [token] else []) ++
      (region.after token.kind).strays tokens

theorem strays_append (region : Region) (first second : List Token) :
    region.strays (first ++ second) =
      region.strays first ++ (region.afterAll first).strays second := by
  induction first generalizing region with
  | nil => rfl
  | cons token first ih =>
      simp only [List.cons_append, strays, ih, List.append_assoc]
      rfl

/-- The tokens of the item that is open in a region. -/
def Holds (region : Region) (current : List Token) : Prop :=
  match region with
  | .text | .plain => current = []
  | .block => Unfinished current .blockEnd
  | .variable => Unfinished current .variableEnd
  | .comment => ∃ opening, opening.kind = .commentBegin ∧ current = [opening]
  | .commented => Unfinished current .commentEnd
  | .raw => ∃ opening, opening.kind = .rawBegin ∧ current = [opening]
  | .rawPlain => ∃ opening content, opening.kind = .rawBegin ∧ content.kind = .data ∧
      current = [opening, content]
  | .ended => False

variable {region : Region} {tokens current : List Token} {items : List (List Token)}
  {token : Token}

/-- A token is a stray character of the open item if the item is a tag. -/
theorem Holds.strays_append (holds : region.Holds current) (token : Token) :
    Item.strays (current ++ [token]) = Item.strays current ++
      if token.kind = .data ∧ region.isTag = true then [token] else [] := by
  cases region with
  | text | plain =>
      rw [Holds] at holds
      simp [holds, Item.strays, isTag]
  | comment | raw =>
      rcases holds with ⟨opening, opens, rfl⟩
      simp [Item.strays, opens, isTag]
  | rawPlain =>
      rcases holds with ⟨opening, content, opens, _, rfl⟩
      simp [Item.strays, opens, isTag]
  | ended => exact absurd holds id
  | _ =>
      cases holds
      all_goals by_cases isData : token.kind = .data <;> simp [Item.strays, isTag, *]

/-- Tokens that lead to a region are split into items and the tokens of the item that is open. -/
structure Split (tokens : List Token) (region : Region) (items : List (List Token))
    (current : List Token) : Prop where
  tokens_eq : tokens = items.flatten ++ current
  each : ∀ item ∈ items, Item item
  apart : Item.Apart items
  holds : region.Holds current
  afterText : region = .text → ∀ item ∈ items.getLast?, Item.isData item = false
  strays_eq : text.strays tokens = items.flatMap Item.strays ++ Item.strays current

namespace Split

theorem nil : Split [] .text [] [] where
  tokens_eq := rfl
  each := by simp
  apart := .nil
  holds := rfl
  afterText := by simp
  strays_eq := rfl

/-- One more token gives the stray characters that the open item has with it. -/
theorem strays_snoc (split : Split tokens region items current)
    (leads : text.afterAll tokens = region) (token : Token) :
    text.strays (tokens ++ [token]) =
      items.flatMap Item.strays ++ Item.strays (current ++ [token]) := by
  rw [Region.strays_append, split.strays_eq, leads, split.holds.strays_append]
  simp [strays]

/-- A token begins an item or goes on with it. -/
theorem extend (split : Split tokens region items current)
    (leads : text.afterAll tokens = region) {next : Region} (notText : next ≠ .text)
    (holds : next.Holds (current ++ [token])) :
    Split (tokens ++ [token]) next items (current ++ [token]) where
  tokens_eq := by rw [split.tokens_eq, List.append_assoc]
  each := split.each
  apart := split.apart
  holds := holds
  afterText isText := absurd isText notText
  strays_eq := split.strays_snoc leads token

/-- A token closes the item that is open, or is an item by itself. -/
theorem close (split : Split tokens region items current)
    (leads : text.afterAll tokens = region) {next : Region} (isBetween : next.isBetween = true)
    (isItem : Item (current ++ [token]))
    (isData : Item.isData (current ++ [token]) = true → region = .text ∧ next ≠ .text) :
    Split (tokens ++ [token]) next (items ++ [current ++ [token]]) [] where
  tokens_eq := by simp [split.tokens_eq]
  each := by
    intro item member
    rcases List.mem_append.1 member with earlier | last
    · exact split.each item earlier
    · rw [List.mem_singleton.1 last]
      exact isItem
  apart := by
    refine List.isChain_append.2 ⟨split.apart, .singleton _, ?_⟩
    intro first isLast second isFirst
    rcases Option.some.inj isFirst with rfl
    rintro ⟨firstData, secondData⟩
    have notData := split.afterText (isData secondData).1 first isLast
    simp [notData] at firstData
  holds := by cases next <;> simp [Region.isBetween] at isBetween <;> rfl
  afterText := by
    intro isText item isLast
    rw [List.getLast?_concat, Option.mem_some_iff] at isLast
    subst isLast
    by_contra itemData
    exact (isData (by simpa using itemData)).2 isText
  strays_eq := by simp [split.strays_snoc leads token, Item.strays]

end Split

/-- A token that opens an item. -/
theorem Holds.open_ (isOpener :
    token.kind ∈ [.blockBegin, .variableBegin, .commentBegin, .rawBegin]) :
    region.after token.kind ≠ .text ∧ (region.after token.kind).Holds [token] := by
  simp only [List.mem_cons, List.not_mem_nil, or_false] at isOpener
  rcases isOpener with opens | opens | opens | opens
  · rw [opens]
    exact ⟨by simp [after], .blockTag opens (by simp)⟩
  · rw [opens]
    exact ⟨by simp [after], .printTag opens (by simp)⟩
  · rw [opens]
    exact ⟨by simp [after], token, opens, rfl⟩
  · rw [opens]
    exact ⟨by simp [after], token, opens, rfl⟩

/-- A token inside a tag goes on with it. -/
theorem Holds.append_part (holds : region.Holds current) (inTag : region.isTag = true)
    (isPart : token.IsPart) : region.Holds (current ++ [token]) := by
  have each {parts : List Token} (each : ∀ part ∈ parts, part.IsPart) :
      ∀ part ∈ parts ++ [token], part.IsPart := by
    intro part member
    rcases List.mem_append.1 member with earlier | last
    · exact each part earlier
    · rw [List.mem_singleton.1 last]
      exact isPart
  have isEither : region = .block ∨ region = .variable := by simpa [isTag] using inTag
  rcases isEither with rfl | rfl
  · cases holds with
    | blockTag opens parts => exact .blockTag opens (each parts)
  · cases holds with
    | printTag opens parts => exact .printTag opens (each parts)

/-- The kind of the token that closes the item which is open in a region. -/
def closingKind? : Region → Option Token.Kind
  | .block => some .blockEnd
  | .variable => some .variableEnd
  | .commented => some .commentEnd
  | .raw | .rawPlain => some .rawEnd
  | _ => none

/-- What stands open in a region that can be closed is unfinished. -/
theorem Holds.unfinished (holds : region.Holds current) {kind : Token.Kind}
    (closes : region.closingKind? = some kind) : Unfinished current kind := by
  cases region with
  | raw =>
      rcases holds with ⟨opening, opens, rfl⟩
      cases closes
      exact @Unfinished.raw opening none opens (by simp)
  | rawPlain =>
      rcases holds with ⟨opening, content, opens, isData, rfl⟩
      cases closes
      exact @Unfinished.raw opening (some content) opens (by simpa using isData)
  | text | plain | comment | ended => simp [closingKind?] at closes
  | _ =>
      cases closes
      exact holds

/-- What a token does in a region that allows it. -/
theorem role_of_allows {kind : Token.Kind} (allowed : region.allows kind = true)
    (notEnd : kind ≠ .eof) :
    (region.isBetween = true ∧
      (kind ∈ [.blockBegin, .variableBegin, .commentBegin, .rawBegin] ∨ kind = .lineComment)) ∨
    (region = .text ∧ kind = .data) ∨
    (region.isTag = true ∧ (kind.isInner = true ∨ kind = .data)) ∨
    (region = .comment ∧ kind = .comment) ∨ (region = .raw ∧ kind = .data) ∨
    region.closingKind? = some kind := by
  cases region <;> simp [allows, isBetween, isTag, closingKind?] at allowed ⊢ <;> tauto

theorem after_of_isTag {kind : Token.Kind} (inTag : region.isTag = true)
    (isPart : kind.isInner = true ∨ kind = .data) : region.after kind = region := by
  rcases isPart with inner | rfl
  · exact after_of_isInner inner
  · cases region <;> simp [isTag] at inTag <;> rfl

theorem after_of_closingKind? {kind : Token.Kind} (closes : region.closingKind? = some kind) :
    region.after kind = .text := by
  cases region <;> simp [closingKind?] at closes <;> subst closes <;> rfl

namespace Split

theorem current_eq_nil (split : Split tokens region items current)
    (isBetween : region.isBetween = true) : current = [] := by
  have holds := split.holds
  cases region <;> simp [Region.isBetween] at isBetween <;> exact holds

/-- The tokens of the open item are the last ones. -/
theorem eq_current (split : Split tokens region items current) {earlier tail : List Token}
    (sameTokens : tokens = earlier ++ tail) (sameLength : tail.length = current.length) :
    tail = current :=
  (List.append_inj' (sameTokens.symm.trans split.tokens_eq) sameLength).2

/-- One more token begins an item, goes on with the open one or closes it. -/
theorem snoc (split : Split tokens region items current)
    (leads : text.afterAll tokens = region) (allowed : region.allows token.kind = true)
    (notEnd : token.kind ≠ .eof)
    (oneChar : token.kind = .data → region.isTag = true → token.text.length = 1) :
    ∃ items current, Split (tokens ++ [token]) (region.after token.kind) items current := by
  have holds := split.holds
  rcases role_of_allows allowed notEnd with
    ⟨isBetween, isOpener | isComment⟩ | ⟨rfl, isData⟩ | ⟨inTag, isPart⟩ | ⟨rfl, isBody⟩ |
      ⟨rfl, isData⟩ | closes
  · rcases split.current_eq_nil isBetween with rfl
    have opened : region.after token.kind ≠ .text ∧ _ := Holds.open_ isOpener
    exact ⟨_, _, split.extend leads opened.1 opened.2⟩
  · rcases split.current_eq_nil isBetween with rfl
    rw [isComment]
    exact ⟨_, _, split.close leads rfl (.lineComment isComment) (by simp [Item.isData, isComment])⟩
  · cases holds
    rw [isData]
    exact ⟨_, _, split.close leads rfl (.data isData) (by simp [Region.after])⟩
  · rw [after_of_isTag inTag isPart]
    refine ⟨_, _, split.extend leads ?_ (holds.append_part inTag ?_)⟩
    · rintro rfl
      simp [isTag] at inTag
    · rcases isPart with inner | isData
      · exact .of_isInner inner
      · exact .stray isData (oneChar isData inTag)
  · rcases holds with ⟨opening, opens, rfl⟩
    rw [isBody]
    exact ⟨_, _, split.extend leads (by simp [after]) (.comment opens isBody)⟩
  · rcases holds with ⟨opening, opens, rfl⟩
    rw [isData]
    exact ⟨_, _, split.extend leads (by simp [after]) ⟨opening, token, opens, isData, rfl⟩⟩
  · have unfinished := holds.unfinished closes
    rw [after_of_closingKind? closes]
    refine ⟨_, _, split.close leads rfl (.closed unfinished rfl) ?_⟩
    simp [unfinished.isData_append]

end Split

/-- Tokens of which each is allowed where it stands are split into items. -/
theorem exists_split (tokens : List Token) (shapes : text.Shapes tokens)
    (noEnd : ∀ token ∈ tokens, token.kind ≠ .eof)
    (oneChar : ∀ token ∈ text.strays tokens, token.text.length = 1) :
    ∃ items current, Split tokens (text.afterAll tokens) items current := by
  induction tokens using List.reverseRecOn with
  | nil => exact ⟨[], [], .nil⟩
  | append_singleton tokens token ih =>
      rw [shapes_append] at shapes
      rw [strays_append] at oneChar
      have before := ih shapes.1 (fun token member => noEnd token (by simp [member]))
        (fun token member => oneChar token (by simp [member]))
      rcases before with ⟨items, current, split⟩
      rw [afterAll_append]
      apply split.snoc rfl shapes.2.1 (noEnd token (by simp))
      intro isData inTag
      exact oneChar token (by simp [strays, isData, inTag])

/-- At the end of a template the last item may be unfinished. -/
theorem Split.current_cases (split : Split tokens region items current)
    (allowed : region.allows .eof = true) : current = [] ∨ ∃ kind, Unfinished current kind := by
  cases closes : region.closingKind? with
  | some kind => exact Or.inr ⟨kind, split.holds.unfinished closes⟩
  | none =>
      apply Or.inl
      apply split.current_eq_nil
      cases region <;> simp_all [closingKind?, allows, isBetween]

/-- No token follows the one for the end. -/
theorem Shapes.kind_ne_eof {last : Token} (shapes : region.Shapes (tokens ++ [last])) :
    ∀ token ∈ tokens, token.kind ≠ .eof := by
  induction tokens generalizing region with
  | nil => simp
  | cons first tokens ih =>
      intro token member
      rcases List.mem_cons.1 member with rfl | later
      · intro isEnd
        have further := shapes.2
        rw [isEnd] at further
        cases tokens <;> simp [Shapes, after, allows] at further
      · exact ih shapes.2 token later

end Region

end Stencil
