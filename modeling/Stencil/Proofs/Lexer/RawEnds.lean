import Stencil.Proofs.Lexer.Pieces

/-!
# The end of a raw block

A raw block ends with an `endraw` tag. The search for it looks at the start delimiters in its text
from the first one on, but passes over each of them as a whole: an `endraw` tag that begins within a
start delimiter that was looked at is not seen. Where the start delimiter cannot be found again
within itself, every one is looked at, and the search finds the first tag.
-/

namespace Stencil.Lexer

/-- The places in a text that a search for a delimiter looks at: each delimiter that is found is
passed over as a whole. -/
inductive LooksAt (delimiter : List Char) : List Char → Nat → Prop where
  | here {text : List Char} (starts : delimiter <+: text) : LooksAt delimiter text 0
  | after {text : List Char} {length : Nat} (further : LooksAt delimiter text length) :
      LooksAt delimiter (delimiter ++ text) (delimiter.length + length)
  | past {char : Char} {text : List Char} {length : Nat} (notHere : ¬delimiter <+: char :: text)
      (further : LooksAt delimiter text length) : LooksAt delimiter (char :: text) (length + 1)

/-- A text begins with an `endraw` tag, in any spelling. -/
def ClosesRaw (dialect : Dialect) (text : List Char) : Prop :=
  ∃ tag after, WordTag.Fits dialect "endraw".toList tag text after

/-- A text up to an `endraw` tag, of which there is none that begins earlier. -/
structure EndsFirst (dialect : Dialect) (content : List Char) (length : Nat) : Prop where
  closes : ClosesRaw dialect (content.drop length)
  first : ∀ fewer < length, ¬ClosesRaw dialect (content.drop fewer)

/-- The first `endraw` tag of a text with its place, if there is one. -/
inductive FirstEnd (dialect : Dialect) (content : List Char) : Option (Nat × WordTag) → Prop where
  | found {length : Nat} {tag : WordTag} {after : List Char}
      (ends : EndsFirst dialect content length)
      (fits : tag.Fits dialect "endraw".toList (content.drop length) after) :
      FirstEnd dialect content (some (length, tag))
  | none (noEnd : ∀ length, ¬ClosesRaw dialect (content.drop length)) :
      FirstEnd dialect content none

/-- The first `endraw` tag of a text is not looked at: it begins within a start delimiter that was
looked at. -/
def HidesEnd (dialect : Dialect) (content : List Char) : Prop :=
  ∃ length, EndsFirst dialect content length ∧
    ¬LooksAt dialect.blockStart.toList content length

variable {dialect : Dialect} {delimiter text content : List Char} {length : Nat}

/-! ### Places -/

/-- After a delimiter the search goes on behind it. -/
theorem LooksAt.of_append (looks : LooksAt delimiter (delimiter ++ text) length) :
    length = 0 ∨ ∃ further, length = delimiter.length + further ∧
      LooksAt delimiter text further := by
  generalize same : delimiter ++ text = whole at looks
  cases looks with
  | here => exact Or.inl rfl
  | after further =>
      cases List.append_cancel_left same
      exact Or.inr ⟨_, rfl, further⟩
  | past notHere => exact absurd ⟨text, same⟩ notHere

/-- Without a delimiter the search goes on behind one character. -/
theorem LooksAt.of_cons {char : Char} (notHere : ¬delimiter <+: char :: text)
    (looks : LooksAt delimiter (char :: text) length) :
    ∃ further, length = 1 + further ∧ LooksAt delimiter text further := by
  generalize same : char :: text = whole at looks
  cases looks with
  | here starts => exact absurd (same ▸ starts) notHere
  | after => exact absurd ⟨_, same.symm⟩ notHere
  | past _ further =>
      cases same
      exact ⟨_, Nat.add_comm _ _, further⟩

/-- Where no end of a delimiter is its beginning, every delimiter is looked at. -/
theorem looksAt_of_noBorder (nonempty : delimiter ≠ [])
    (noBorder : ∀ shift, 0 < shift → shift < delimiter.length →
      ¬delimiter.drop shift <+: delimiter)
    (starts : delimiter <+: text.drop length) : LooksAt delimiter text length := by
  induction sameSize : text.length using Nat.strong_induction_on generalizing text length with
  | _ size ih =>
      subst sameSize
      have positive : 0 < delimiter.length := List.length_pos_iff.2 nonempty
      by_cases here : delimiter <+: text
      · rcases here with ⟨text, rfl⟩
        by_cases isFirst : length = 0
        · exact isFirst ▸ .here (List.prefix_append _ _)
        -- A place within the delimiter would make an end of it its beginning.
        have isPast : delimiter.length ≤ length := by
          by_contra isWithin
          refine noBorder length (by omega) (by omega) ?_
          rw [List.drop_append_of_le_length (by omega)] at starts
          exact List.prefix_of_prefix_length_le (List.prefix_append _ _) starts (by simp)
        obtain ⟨further, rfl⟩ := Nat.exists_eq_add_of_le isPast
        rw [List.drop_append, List.drop_of_length_le isPast, List.nil_append,
          Nat.add_sub_cancel_left] at starts
        exact .after (ih _ (by simp [positive]) starts rfl)
      · cases text with
        | nil => simp [nonempty] at starts
        | cons char text =>
            cases length with
            | zero => exact absurd starts here
            | succ length => exact .past here (ih _ (by simp) starts rfl)

/-! ### The search -/

theorem ClosesRaw.starts_blockStart (closes : ClosesRaw dialect text) :
    dialect.blockStart.toList <+: text := by
  rcases closes with ⟨tag, after, fits⟩
  rcases fits.exists_written with ⟨leading, trailing, _, _, same, _⟩
  rw [same, WordTag.written, List.append_assoc]
  exact List.prefix_append _ _

/-- A place where a tag begins is inside of the text. -/
theorem ClosesRaw.lt_length (sound : dialect.Sound)
    (closes : ClosesRaw dialect (content.drop length)) : length < content.length := by
  by_contra isOutside
  have starts := closes.starts_blockStart
  rw [List.drop_of_length_le (Nat.not_lt.1 isOutside)] at starts
  exact sound.blockStart_ne_nil (List.prefix_nil.1 starts)

theorem closesRaw_iff (sound : dialect.Sound) :
    ClosesRaw dialect text ↔ (wordTag? dialect "endraw".toList text).isSome = true := by
  constructor
  · rintro ⟨tag, after, fits⟩
    exact isSome_wordTag?_of_fits sound (show "endraw".toList = 'e' :: "ndraw".toList from rfl)
      (by decide) (by decide) fits
  · intro isTag
    rcases Option.isSome_iff_exists.1 isTag with ⟨tag, found⟩
    exact ⟨tag, fits_of_wordTag? found⟩

/-- Where no end of the start delimiter is its beginning, no tag is hidden. -/
theorem not_hidesEnd_of_noBorder (sound : dialect.Sound)
    (noBorder : ∀ shift, 0 < shift → shift < dialect.blockStart.toList.length →
      ¬dialect.blockStart.toList.drop shift <+: dialect.blockStart.toList)
    (content : List Char) : ¬HidesEnd dialect content := by
  rintro ⟨length, ends, notLooked⟩
  exact notLooked (looksAt_of_noBorder sound.blockStart_ne_nil noBorder
    ends.closes.starts_blockStart)

/-- The first `endraw` tag that is looked at in a text, with its place, if there is one. -/
inductive FirstLooked (dialect : Dialect) (text : List Char) : Option (Nat × WordTag) → Prop where
  | found {length : Nat} {tag : WordTag}
      (isTag : wordTag? dialect "endraw".toList (text.drop length) = some tag)
      (looked : LooksAt dialect.blockStart.toList text length)
      (first : ∀ fewer < length, LooksAt dialect.blockStart.toList text fewer →
        ¬ClosesRaw dialect (text.drop fewer)) : FirstLooked dialect text (some (length, tag))
  | none (noTag : ∀ length, LooksAt dialect.blockStart.toList text length →
      ¬ClosesRaw dialect (text.drop length)) : FirstLooked dialect text none

/-- A place of the search, from a number of characters further on. -/
def shiftBy (shift : Nat) : Nat × WordTag → Nat × WordTag
  | (length, tag) => (shift + length, tag)

theorem rawEnd?_skip (skip : Nat) (text : List Char) :
    rawEnd? dialect skip text = (rawEnd? dialect 0 (text.drop skip)).map (shiftBy skip) := by
  induction text generalizing skip with
  | nil => simp [rawEnd?]
  | cons char text ih =>
      cases skip with
      | zero =>
          have same : shiftBy 0 = id := by
            funext result
            simp [shiftBy]
          simp [same]
      | succ skip =>
          rw [rawEnd?]
          dsimp only
          rw [List.drop_succ_cons, ih, Option.map_map]
          congr 1
          funext result
          simp only [Function.comp, shiftBy, Prod.mk.injEq, and_true]
          omega

/-- The search goes on after what begins no tag. -/
theorem FirstLooked.shift {front : List Char} {result : Option (Nat × WordTag)}
    (notHere : ¬ClosesRaw dialect (front ++ text))
    (places : ∀ length, LooksAt dialect.blockStart.toList (front ++ text) length → length = 0 ∨
      ∃ further, length = front.length + further ∧ LooksAt dialect.blockStart.toList text further)
    (later : ∀ length, LooksAt dialect.blockStart.toList text length →
      LooksAt dialect.blockStart.toList (front ++ text) (front.length + length))
    (result_first : FirstLooked dialect text result) :
    FirstLooked dialect (front ++ text) (result.map (shiftBy front.length)) := by
  cases result_first with
  | found isTag looked first =>
      refine .found (by simpa using isTag) (later _ looked) ?_
      intro fewer isFewer looks
      rcases places fewer looks with rfl | ⟨further, rfl, looksFurther⟩
      · exact notHere
      · simpa using first further (by omega) looksFurther
  | none noTag =>
      refine .none fun length looks => ?_
      rcases places length looks with rfl | ⟨further, rfl, looksFurther⟩
      · exact notHere
      · simpa using noTag further looksFurther

theorem rawEnd?_cons_of_not_starts {char : Char}
    (notHere : ¬dialect.blockStart.toList <+: char :: text) :
    rawEnd? dialect 0 (char :: text) = (rawEnd? dialect 0 text).map (shiftBy 1) := by
  rw [rawEnd?]
  dsimp only
  rw [if_neg fun starts => notHere (Text.startsWith_iff.1 starts)]
  congr 1
  funext result
  simp [shiftBy, Nat.add_comm]

theorem rawEnd?_append_of_none (nonempty : dialect.blockStart.toList ≠ [])
    (noTag : wordTag? dialect "endraw".toList (dialect.blockStart.toList ++ text) = none) :
    rawEnd? dialect 0 (dialect.blockStart.toList ++ text) =
      (rawEnd? dialect 0 text).map (shiftBy dialect.blockStart.toList.length) := by
  rcases List.exists_cons_of_ne_nil nonempty with ⟨char, others, same⟩
  have shows : dialect.blockStart.toList ++ text = char :: (others ++ text) := by
    rw [same, List.cons_append]
  have starts : Text.startsWith dialect.blockStart.toList (char :: (others ++ text)) = true :=
    Text.startsWith_iff.2 (shows ▸ List.prefix_append _ _)
  have sameLength : dialect.blockStart.toList.length = others.length + 1 := by
    rw [same, List.length_cons]
  rw [shows] at noTag ⊢
  rw [rawEnd?]
  simp only [if_pos starts, noTag]
  rw [rawEnd?_skip, ← String.length_toList, sameLength, Nat.add_sub_cancel, List.drop_left,
    Option.map_map]
  congr 1
  funext result
  simp only [Function.comp, shiftBy, Prod.mk.injEq, and_true]
  omega

theorem firstLooked_rawEnd? (sound : dialect.Sound) (text : List Char) :
    FirstLooked dialect text (rawEnd? dialect 0 text) := by
  induction sameSize : text.length using Nat.strong_induction_on generalizing text with
  | _ size ih =>
      subst sameSize
      cases isTag : wordTag? dialect "endraw".toList text with
      | some tag =>
          have closes := (closesRaw_iff sound).2 (Option.isSome_of_eq_some isTag)
          have starts := closes.starts_blockStart
          have found : rawEnd? dialect 0 text = some (0, tag) := by
            cases text with
            | nil => exact absurd (List.prefix_nil.1 starts) sound.blockStart_ne_nil
            | cons char text =>
                rw [rawEnd?]
                simp only [Text.startsWith_iff.2 starts, if_true, isTag]
          rw [found]
          exact .found isTag (.here starts) (by simp)
      | none =>
          have notHere : ¬ClosesRaw dialect text := by
            rw [closesRaw_iff sound, isTag]
            simp
          by_cases starts : dialect.blockStart.toList <+: text
          · rcases starts with ⟨text, rfl⟩
            have shorter : text.length < (dialect.blockStart.toList ++ text).length := by
              rw [List.length_append]
              have := List.length_pos_iff.2 sound.blockStart_ne_nil
              omega
            rw [rawEnd?_append_of_none sound.blockStart_ne_nil isTag]
            exact (ih _ shorter text rfl).shift notHere (fun _ => LooksAt.of_append)
              fun _ => LooksAt.after
          · cases text with
            | nil =>
                refine .none fun length _ closes => ?_
                exact absurd (closes.lt_length sound) (Nat.not_lt_zero _)
            | cons char text =>
                have later (length : Nat)
                    (looks : LooksAt dialect.blockStart.toList text length) :
                    LooksAt dialect.blockStart.toList ([char] ++ text)
                      ([char].length + length) := by
                  rw [Nat.add_comm]
                  exact .past starts looks
                rw [rawEnd?_cons_of_not_starts starts]
                exact (ih _ (Nat.lt_succ_self _) text rfl).shift notHere
                  (fun _ looks => Or.inr (LooksAt.of_cons starts looks)) later

theorem EndsFirst.eq {length' : Nat} (ends : EndsFirst dialect content length)
    (ends' : EndsFirst dialect content length') : length = length' := by
  by_contra different
  rcases Nat.lt_or_gt_of_ne different with isFewer | isFewer
  · exact ends'.first length isFewer ends.closes
  · exact ends.first length' isFewer ends'.closes

theorem exists_endsFirst (closes : ClosesRaw dialect (content.drop length)) :
    ∃ first ≤ length, EndsFirst dialect content first := by
  classical
  have hasEnd : ∃ length, ClosesRaw dialect (content.drop length) := ⟨length, closes⟩
  exact ⟨Nat.find hasEnd, Nat.find_le closes, Nat.find_spec hasEnd, fun _ => Nat.find_min hasEnd⟩

theorem FirstLooked.closes {tag : WordTag}
    (result_first : FirstLooked dialect content (some (length, tag))) :
    ClosesRaw dialect (content.drop length) := by
  cases result_first with
  | found isTag => exact ⟨tag, fits_of_wordTag? isTag⟩

/-- Where no tag is hidden, the first one that is looked at is the first one. -/
theorem FirstLooked.firstEnd {result : Option (Nat × WordTag)}
    (result_first : FirstLooked dialect content result) (notHidden : ¬HidesEnd dialect content) :
    FirstEnd dialect content result := by
  have looked_of_endsFirst {length : Nat} (ends : EndsFirst dialect content length) :
      LooksAt dialect.blockStart.toList content length :=
    not_not.1 fun notLooked => notHidden ⟨length, ends, notLooked⟩
  cases result_first with
  | found isTag looked first =>
      rcases fits_of_wordTag? isTag with ⟨after, fits⟩
      refine .found ⟨⟨_, after, fits⟩, fun fewer isFewer closes => ?_⟩ fits
      rcases exists_endsFirst closes with ⟨least, isLeast, ends⟩
      exact first least (Nat.lt_of_le_of_lt isLeast isFewer) (looked_of_endsFirst ends) ends.closes
  | none noTag =>
      refine .none fun length closes => ?_
      rcases exists_endsFirst closes with ⟨least, _, ends⟩
      exact noTag least (looked_of_endsFirst ends) ends.closes

/-- Where the first tag is hidden, what is looked at first is not the first tag. -/
theorem FirstLooked.not_endsFirst {tag : WordTag}
    (result_first : FirstLooked dialect content (some (length, tag)))
    (hidden : HidesEnd dialect content) : ¬EndsFirst dialect content length := by
  rcases hidden with ⟨first, ends, notLooked⟩
  intro ends'
  cases result_first with
  | found isTag looked => exact notLooked (ends.eq ends' ▸ looked)

end Stencil.Lexer
