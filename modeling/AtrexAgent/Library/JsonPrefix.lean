import AtrexAgent.Library.JsonKeys

/-! What the decoder makes of a text does not change when more text comes after it, nor when the
characters of its strings that are not ASCII are escaped. -/

namespace AtrexAgent.Json

variable {F : Type}

/-! ### Respelling -/

/-- A character that begins nothing but a string's inside. -/
def Dull (c : Char) : Prop := 127 ≤ c.toNat ∨ c = '\\'

/-- A text is spelled anew, all but its end: ASCII as it is, and the rest as a string has it. -/
structure Respelling (T : Text → Text) : Prop where
  narrow : ∀ c s, c.toNat < 127 → T (c :: s) = c :: T s
  wide : ∀ c s, 127 ≤ c.toNat → ∃ d rest, T (c :: s) = d :: rest ∧ Dull d
  inside : ∀ c s, 127 ≤ c.toNat → scanString (T (c :: s)) = push c (scanString (T s))

theorem Dull.ne {c d : Char} (dull : Dull c) (small : d.toNat < 127) (plain : d ≠ '\\') : c ≠ d := by
  rintro rfl
  rcases dull with large | same
  · omega
  · exact plain same

/-- The text begins with a character that no number goes on with. -/
def Ended (s : Text) : Prop := ∃ c rest, s = c :: rest ∧ inNumber c = false

theorem space_cases {c : Char} (space : isSpace c = true) : c = ' ' ∨ c = '\t' ∨ c = '\n' ∨ c = '\r' := by
  unfold isSpace at space
  simpa [or_assoc] using space

theorem ended_of_dropWhile {s rest : Text} {c : Char} (dropped : s.dropWhile isSpace = c :: rest)
    (other : inNumber c = false) : Ended s := by
  cases s with
  | nil => cases dropped
  | cons d s =>
      rw [List.dropWhile_cons] at dropped
      split at dropped
      · rename_i space
        refine ⟨d, s, rfl, ?_⟩
        rcases space_cases space with rfl | rfl | rfl | rfl <;> decide
      · cases dropped
        exact ⟨c, _, rfl, other⟩

theorem hexValue_narrow {c : Char} {n : Nat} (value : hexValue c = some n) : c.toNat < 127 := by
  unfold hexValue isDigit at value
  split at value
  · rename_i digit
    have := of_decide_eq_true digit
    omega
  · split at value
    · omega
    · split at value
      · omega
      · cases value

theorem hex4_narrow {a b c d : Char} {code : Nat} (value : hex4 a b c d = some code) :
    a.toNat < 127 ∧ b.toNat < 127 ∧ c.toNat < 127 ∧ d.toNat < 127 := by
  unfold hex4 at value
  obtain ⟨_, first, value⟩ := Option.bind_eq_some_iff.mp value
  obtain ⟨_, second, value⟩ := Option.bind_eq_some_iff.mp value
  obtain ⟨_, third, value⟩ := Option.bind_eq_some_iff.mp value
  obtain ⟨_, fourth, value⟩ := Option.bind_eq_some_iff.mp value
  exact ⟨hexValue_narrow first, hexValue_narrow second, hexValue_narrow third, hexValue_narrow fourth⟩

theorem unescape_narrow {c d : Char} (value : unescape c = some d) : c.toNat < 127 ∧ c ≠ 'u' := by
  unfold unescape at value
  repeat
    split at value
    · rename_i same
      subst same
      exact ⟨by decide, by decide⟩
  cases value

theorem push_some {c : Char} {scanned : Option (Text × Text)} {text rest : Text}
    (pushed : push c scanned = some (text, rest)) : ∃ text', scanned = some (text', rest) ∧ c :: text' = text := by
  obtain ⟨⟨text', rest'⟩, here, same⟩ := Option.map_eq_some_iff.mp pushed
  cases same
  exact ⟨text', here, rfl⟩

theorem scanString_escape {c : Char} {rest : Text} (plain : c ≠ 'u') :
    scanString ('\\' :: c :: rest) = match unescape c with
      | none => none
      | some character => push character (scanString rest) := by
  rw [scanString.eq_def]
  split
  · rename_i same
    cases same
  · rename_i same
    cases same
  · rename_i same
    injection same with _ same
    injection same with same _
    exact absurd same plain
  · rename_i same
    injection same with _ same
    injection same with same same'
    subst same same'
    rfl
  · rename_i other same
    injection same with same same'
    exact (other _ _ same.symm same'.symm).elim

theorem digit_narrow {c : Char} (digit : isDigit c = true) : c.toNat < 127 := by
  have := of_decide_eq_true digit
  omega

theorem dull_digit {c : Char} (dull : Dull c) : isDigit c = false := by
  rcases dull with large | rfl
  · exact decide_eq_false (by omega)
  · decide

/-- An exponent, or the end of a number, is no fraction. -/
theorem scanExponent_head {s rest : Text} {exponent : Option Text} (scanned : scanExponent s = (exponent, rest))
    (ended : Ended rest) : s ≠ [] ∧ s.head? ≠ some '.' := by
  obtain ⟨end_, rest', rfl, other⟩ := ended
  cases s with
  | nil => cases scanned
  | cons c s =>
      refine ⟨List.cons_ne_nil _ _, ?_⟩
      rintro point
      cases Option.some.inj point
      rw [scanExponent] at scanned
      dsimp only at scanned
      rw [if_neg (by simp)] at scanned
      cases scanned
      cases other

theorem scanFraction_ne {s rest : Text} {fraction : Option Text} (scanned : scanFraction s = (fraction, rest))
    (more : rest ≠ []) : s ≠ [] := by
  rintro rfl
  cases scanned
  exact more rfl

theorem scanSign_plain {c : Char} (s : Text) (other : c ≠ '-') : scanSign (c :: s) = (false, c :: s) := by
  unfold scanSign
  split
  · rename_i same
    exact absurd (List.cons.inj same).1 other
  · rfl

theorem scanKeyword_some {s rest : Text} {value : Json F} {words : List (Text × Json F)}
    (scanned : scanKeyword s words = some (value, rest)) : ∃ word, (word, value) ∈ words ∧ s = word ++ rest := by
  induction words with
  | nil => cases scanned
  | cons word words ih =>
      rw [scanKeyword] at scanned
      split at scanned
      · rename_i after dropped
        cases scanned
        exact ⟨word.1, List.mem_cons_self, (dropPrefix_eq_some _ _ _).mp dropped⟩
      · obtain ⟨other, listed, same⟩ := ih scanned
        exact ⟨other, List.mem_cons_of_mem _ listed, same⟩

/-- What begins with a number begins with no keyword. -/
theorem scanKeyword_scanned [FloatText F] {s : Text} {scanned : Numeral × Text}
    (read : scanNumeral s = some scanned) : scanKeyword s (keywords : List (Text × Json F)) = none := by
  cases here : scanKeyword s (keywords : List (Text × Json F)) with
  | none => rfl
  | some scanned' =>
      obtain ⟨word, listed, rfl⟩ := scanKeyword_some here
      simp only [keywords, List.mem_cons, List.not_mem_nil, or_false, Prod.mk.injEq] at listed
      rcases listed with ⟨rfl, -⟩ | ⟨rfl, -⟩ | ⟨rfl, -⟩ | ⟨rfl, -⟩ | ⟨rfl, -⟩ | ⟨rfl, -⟩ <;> cases read

/-! ### No value in no text -/

section Empty

variable [FloatText F]

theorem scanAtom_ne {s : Text} {scanned : Json F × Text} (read : scanAtom s = some scanned) : s ≠ [] := by
  rintro rfl
  cases read

theorem scanValue_ne {fuel : Nat} {s : Text} {scanned : Json F × Text} (read : scanValue fuel s = some scanned) :
    s ≠ [] := by
  rintro rfl
  cases fuel with
  | zero =>
      rw [scanValue] at read
      cases read
  | succ fuel =>
      unfold scanValue at read
      exact scanAtom_ne read rfl

theorem scanItems_ne {fuel : Nat} {s : Text} {scanned : List (Json F) × Text} (read : scanItems fuel s = some scanned) :
    s ≠ [] := by
  cases fuel with
  | zero =>
      rw [scanItems] at read
      cases read
  | succ fuel =>
      unfold scanItems at read
      obtain ⟨item, first, _⟩ := Option.bind_eq_some_iff.mp read
      exact scanValue_ne first

theorem scanMembers_ne {fuel : Nat} {s : Text} {scanned : List (String × Json F) × Text}
    (read : scanMembers fuel s = some scanned) : s ≠ [] := by
  rintro rfl
  cases fuel with
  | zero =>
      rw [scanMembers] at read
      cases read
  | succ fuel =>
      unfold scanMembers at read
      cases read

end Empty

/-! ### One item more -/

section Items

variable [FloatText F] {fuel : Nat} {s rest after : Text} {text : Text} {value : Json F}

theorem scanItems_last (first : scanValue fuel s = some (value, after))
    (closed : after.dropWhile isSpace = ']' :: rest) : scanItems (fuel + 1) s = some ([value], rest) := by
  rw [scanItems, first, Option.bind_some]
  dsimp only
  rw [closed]
  rfl

theorem scanItems_more (first : scanValue fuel s = some (value, after))
    (comma : after.dropWhile isSpace = ',' :: rest) : scanItems (fuel + 1) s =
      (scanItems fuel (rest.dropWhile isSpace)).map fun r => (value :: r.1, r.2) := by
  rw [scanItems, first, Option.bind_some]
  dsimp only
  rw [comma]
  rfl

theorem scanMembers_last (key : scanString s = some (text, rest)) (colon : rest.dropWhile isSpace = ':' :: after)
    {later closing : Text} (first : scanValue fuel (after.dropWhile isSpace) = some (value, later))
    (closed : later.dropWhile isSpace = '}' :: closing) :
    scanMembers (fuel + 1) ('"' :: s) = some ([(String.ofList text, value)], closing) := by
  rw [scanMembers, key, Option.bind_some]
  dsimp only
  rw [colon]
  change (scanValue fuel (after.dropWhile isSpace)).bind _ = _
  rw [first, Option.bind_some, closed]
  rfl

theorem scanMembers_more (key : scanString s = some (text, rest)) (colon : rest.dropWhile isSpace = ':' :: after)
    {later closing : Text} (first : scanValue fuel (after.dropWhile isSpace) = some (value, later))
    (comma : later.dropWhile isSpace = ',' :: closing) : scanMembers (fuel + 1) ('"' :: s) =
      (scanMembers fuel (closing.dropWhile isSpace)).map fun r => ((String.ofList text, value) :: r.1, r.2) := by
  rw [scanMembers, key, Option.bind_some]
  dsimp only
  rw [colon]
  change (scanValue fuel (after.dropWhile isSpace)).bind _ = _
  rw [first, Option.bind_some, comma]
  rfl

end Items

section Respelled

variable {T : Text → Text} (respelling : Respelling T)
include respelling

theorem takeWhile_respelled {p : Char → Bool} (narrow : ∀ c, p c = true → c.toNat < 127)
    (dull : ∀ c, Dull c → p c = false) {s : Text} (stopped : s.dropWhile p ≠ []) :
    (T s).takeWhile p = s.takeWhile p ∧ (T s).dropWhile p = T (s.dropWhile p) := by
  induction s with
  | nil => exact absurd rfl stopped
  | cons c s ih =>
      rw [List.dropWhile_cons] at stopped ⊢
      rw [List.takeWhile_cons]
      split
      · rename_i holds
        rw [if_pos holds] at stopped
        rw [respelling.narrow c s (narrow c holds), List.takeWhile_cons, List.dropWhile_cons, if_pos holds,
          if_pos holds, (ih stopped).1, (ih stopped).2]
        exact ⟨rfl, rfl⟩
      · rename_i fails
        rcases Nat.lt_or_ge c.toNat 127 with small | large
        · rw [respelling.narrow c s small, List.takeWhile_cons, List.dropWhile_cons, if_neg fails, if_neg fails]
          exact ⟨rfl, rfl⟩
        · obtain ⟨d, rest, here, plain⟩ := respelling.wide c s large
          rw [here, List.takeWhile_cons, List.dropWhile_cons, dull d plain]
          exact ⟨rfl, rfl⟩

theorem space_respelled {s : Text} (stopped : s.dropWhile isSpace ≠ []) :
    (T s).dropWhile isSpace = T (s.dropWhile isSpace) := by
  refine (takeWhile_respelled respelling ?_ ?_ stopped).2
  · intro c space
    rcases space_cases space with rfl | rfl | rfl | rfl <;> decide
  · rintro c dull
    by_contra space
    rcases space_cases (Bool.eq_true_of_not_eq_false space) with rfl | rfl | rfl | rfl <;>
      exact dull.ne (by decide) (by decide) rfl

theorem dropSpace_respelled {s rest : Text} {c : Char} (dropped : s.dropWhile isSpace = c :: rest)
    (small : c.toNat < 127) : (T s).dropWhile isSpace = c :: T rest := by
  rw [space_respelled respelling (by rw [dropped]; exact List.cons_ne_nil _ _), dropped, respelling.narrow c rest small]

theorem head_respelled {s rest : Text} {c : Char} (more : s ≠ []) (small : c.toNat < 127) (plain : c ≠ '\\')
    (spelled : T s = c :: rest) : ∃ rest', s = c :: rest' := by
  cases s with
  | nil => exact absurd rfl more
  | cons d s =>
      rcases Nat.lt_or_ge d.toNat 127 with narrow | large
      · rw [respelling.narrow d s narrow] at spelled
        exact ⟨s, by rw [(List.cons.inj spelled).1]⟩
      · obtain ⟨e, rest, here, dull⟩ := respelling.wide d s large
        rw [here] at spelled
        exact absurd (List.cons.inj spelled).1 (dull.ne small plain)

theorem scanString_respelled {s text rest : Text} (scanned : scanString s = some (text, rest)) :
    scanString (T s) = some (text, T rest) := by
  have narrow := respelling.narrow
  fun_induction scanString s generalizing text rest with
  | case2 rest' =>
      cases scanned
      rw [narrow _ _ (by decide)]
      rfl
  | case5 a b c d code hex high e f g h rest' low hex' isLow ih =>
      obtain ⟨text', inner, rfl⟩ := push_some scanned
      obtain ⟨a', b', c', d'⟩ := hex4_narrow hex
      obtain ⟨e', f', g', h'⟩ := hex4_narrow hex'
      rw [narrow '\\' _ (by decide), narrow 'u' _ (by decide), narrow a _ a', narrow b _ b', narrow c _ c',
        narrow d _ d', narrow '\\' _ (by decide), narrow 'u' _ (by decide), narrow e _ e', narrow f _ f',
        narrow g _ g', narrow h _ h', scanString, hex]
      dsimp only
      rw [if_pos high]
      split
      · rename_i same
        cases same
        rw [hex']
        dsimp only
        rw [if_pos isLow, ih inner]
        rfl
      · rename_i other
        exact absurd rfl (other _ _ _ _ _)
  | case9 a b c d rest' code hex high low ih =>
      obtain ⟨text', inner, rfl⟩ := push_some scanned
      obtain ⟨a', b', c', d'⟩ := hex4_narrow hex
      rw [narrow '\\' _ (by decide), narrow 'u' _ (by decide), narrow a _ a', narrow b _ b', narrow c _ c',
        narrow d _ d', scanString, hex]
      dsimp only
      rw [if_neg high, if_neg low, ih inner]
      rfl
  | case11 c rest' other character escape ih =>
      obtain ⟨text', inner, rfl⟩ := push_some scanned
      obtain ⟨small, plain⟩ := unescape_narrow escape
      rw [narrow '\\' _ (by decide), narrow c _ small, scanString_escape plain, escape, ih inner]
      rfl
  | case13 c rest' quote hex escape plain ih =>
      obtain ⟨text', inner, rfl⟩ := push_some scanned
      rcases Nat.lt_or_ge c.toNat 127 with small | large
      · rw [not_or] at plain
        rw [narrow c _ small, scanString_plain c _ quote plain.1 plain.2, ih inner]
        rfl
      · rw [respelling.inside c _ large, ih inner]
        rfl
  | _ => cases scanned

/-! ### Respelled numbers -/

theorem digits_respelled {s : Text} (stopped : s.dropWhile isDigit ≠ []) :
    (T s).takeWhile isDigit = s.takeWhile isDigit ∧ (T s).dropWhile isDigit = T (s.dropWhile isDigit) :=
  takeWhile_respelled respelling (fun _ => digit_narrow) (fun _ => dull_digit) stopped

theorem scanWhole_respelled {s whole rest : Text} (scanned : scanWhole s = some (whole, rest)) (more : rest ≠ []) :
    scanWhole (T s) = some (whole, T rest) := by
  cases s with
  | nil => cases scanned
  | cons c s =>
      rw [scanWhole] at scanned
      split at scanned
      · rename_i zero
        cases scanned
        rw [respelling.narrow c _ (by rw [zero]; decide), scanWhole, if_pos zero]
      · rename_i nonzero
        split at scanned
        · rename_i digit
          cases scanned
          rw [respelling.narrow c s (digit_narrow digit), scanWhole, if_neg nonzero, if_pos digit,
            (digits_respelled respelling more).1, (digits_respelled respelling more).2]
        · cases scanned

theorem scanFraction_respelled {s rest : Text} {fraction : Option Text} (scanned : scanFraction s = (fraction, rest))
    (more : rest ≠ []) (noPoint : rest.head? ≠ some '.') : scanFraction (T s) = (fraction, T rest) := by
  cases s with
  | nil =>
      cases scanned
      exact absurd rfl more
  | cons c s =>
      rw [scanFraction] at scanned
      split at scanned
      · rename_i point
        cases scanned
        rw [respelling.narrow c s (by rw [point.1]; decide), scanFraction, (digits_respelled respelling more).1,
          (digits_respelled respelling more).2, if_pos point]
      · rename_i other
        cases scanned
        have here : c ≠ '.' := fun same => noPoint (by rw [same]; rfl)
        rcases Nat.lt_or_ge c.toNat 127 with small | large
        · rw [respelling.narrow c s small, scanFraction, if_neg fun point => here point.1]
        · obtain ⟨d, rest, spelled, dull⟩ := respelling.wide c s large
          rw [spelled, scanFraction, if_neg fun point => dull.ne (by decide) (by decide) point.1]

theorem scanExponentSign_respelled {s rest sign : Text} (scanned : scanExponentSign s = (sign, rest))
    (more : rest ≠ []) : scanExponentSign (T s) = (sign, T rest) := by
  cases s with
  | nil =>
      cases scanned
      exact absurd rfl more
  | cons c s =>
      rw [scanExponentSign] at scanned
      split at scanned
      · rename_i signed
        cases scanned
        rw [respelling.narrow c _ (by rcases signed with rfl | rfl <;> decide), scanExponentSign, if_pos signed]
      · rename_i unsigned
        cases scanned
        rcases Nat.lt_or_ge c.toNat 127 with small | large
        · rw [respelling.narrow c s small, scanExponentSign, if_neg unsigned]
        · obtain ⟨d, rest, spelled, dull⟩ := respelling.wide c s large
          rw [spelled, scanExponentSign, if_neg]
          rintro (same | same)
          · exact dull.ne (by decide) (by decide) same
          · exact dull.ne (by decide) (by decide) same

theorem scanExponent_respelled {s rest : Text} {exponent : Option Text} (scanned : scanExponent s = (exponent, rest))
    (ended : Ended rest) : scanExponent (T s) = (exponent, T rest) := by
  obtain ⟨stop, rest', rfl, other⟩ := ended
  cases s with
  | nil => cases scanned
  | cons c s =>
      rw [scanExponent] at scanned
      cases signed : scanExponentSign s with
      | mk sign digits =>
          rw [signed] at scanned
          dsimp only at scanned
          split at scanned
          · rename_i marked
            obtain ⟨exponent, stopped⟩ := Prod.mk.inj scanned
            have more : digits.dropWhile isDigit ≠ [] := by
              rw [stopped]
              exact List.cons_ne_nil _ _
            have some_digit : digits ≠ [] := fun empty => more (by rw [empty]; rfl)
            obtain ⟨taken, dropped⟩ := digits_respelled respelling more
            rw [respelling.narrow c _ (by rcases marked.1 with rfl | rfl <;> decide), scanExponent,
              scanExponentSign_respelled respelling signed some_digit]
            dsimp only
            rw [taken, dropped, if_pos marked, exponent, stopped]
          · obtain ⟨rfl, same⟩ := Prod.mk.inj scanned
            obtain ⟨rfl, rfl⟩ := List.cons.inj same
            have plain : ¬(c = 'e' ∨ c = 'E') := by
              rintro (rfl | rfl)
              · cases other
              · cases other
            rcases Nat.lt_or_ge c.toNat 127 with small | large
            · rw [respelling.narrow c s small, scanExponent]
              dsimp only
              rw [if_neg fun marked => plain marked.1]
            · obtain ⟨d, rest, spelled, dull⟩ := respelling.wide c s large
              rw [spelled, scanExponent]
              dsimp only
              rw [if_neg]
              rintro ⟨same | same, -⟩
              · exact dull.ne (by decide) (by decide) same
              · exact dull.ne (by decide) (by decide) same

theorem scanSign_respelled {s : Text} (more : s ≠ []) : scanSign (T s) = ((scanSign s).1, T (scanSign s).2) := by
  cases s with
  | nil => exact absurd rfl more
  | cons c s =>
      by_cases minus : c = '-'
      · subst minus
        rw [respelling.narrow _ _ (by decide)]
        rfl
      · rw [scanSign_plain s minus]
        rcases Nat.lt_or_ge c.toNat 127 with small | large
        · rw [respelling.narrow c s small, scanSign_plain _ minus]
        · obtain ⟨d, rest, spelled, dull⟩ := respelling.wide c s large
          rw [spelled, scanSign_plain _ (dull.ne (by decide) (by decide))]

theorem scanNumeral_respelled {s rest : Text} {numeral : Numeral} (scanned : scanNumeral s = some (numeral, rest))
    (ended : Ended rest) : scanNumeral (T s) = some (numeral, T rest) := by
  unfold scanNumeral at scanned ⊢
  cases sign : scanSign s with
  | mk negative afterSign =>
      rw [sign] at scanned
      obtain ⟨⟨whole, afterWhole⟩, read, scanned⟩ := Option.bind_eq_some_iff.mp scanned
      cases point : scanFraction afterWhole with
      | mk fraction afterFraction =>
          cases mark : scanExponent afterFraction with
          | mk exponent afterExponent =>
              dsimp only at scanned
              rw [point] at scanned
              dsimp only at scanned
              rw [mark] at scanned
              cases scanned
              obtain ⟨more, noPoint⟩ := scanExponent_head mark ended
              have whole_more := scanFraction_ne point more
              have sign_more : s ≠ [] := by
                rintro rfl
                cases sign
                cases read
              rw [scanSign_respelled respelling sign_more, sign]
              dsimp only
              rw [scanWhole_respelled respelling read whole_more]
              dsimp only [Option.bind_eq_bind, Option.bind_some]
              rw [scanFraction_respelled respelling point more noPoint]
              dsimp only
              rw [scanExponent_respelled respelling mark ended]
              rfl

/-! ### Respelled values -/

theorem append_respelled {start : Text} (narrow : ∀ c ∈ start, c.toNat < 127) (rest : Text) :
    T (start ++ rest) = start ++ T rest := by
  induction start with
  | nil => rfl
  | cons c start ih =>
      rw [List.cons_append, respelling.narrow c _ (narrow c List.mem_cons_self),
        ih fun c member => narrow c (List.mem_cons_of_mem _ member), List.cons_append]

variable [FloatText F]

theorem scanKeyword_respelled {s rest : Text} {value : Json F} (scanned : scanKeyword s keywords = some (value, rest)) :
    scanKeyword (T s) keywords = some (value, T rest) := by
  obtain ⟨word, listed, rfl⟩ := scanKeyword_some scanned
  have narrow : ∀ word ∈ (keywords : List (Text × Json F)), ∀ c ∈ word.1, c.toNat < 127 := by
    intro word listed
    simp only [keywords, List.mem_cons, List.not_mem_nil, or_false] at listed
    rcases listed with rfl | rfl | rfl | rfl | rfl | rfl <;>
    · dsimp only
      exact each_of_all (by decide)
  rw [append_respelled respelling (narrow _ listed)]
  simp only [keywords, List.mem_cons, List.not_mem_nil, or_false, Prod.mk.injEq] at listed
  rcases listed with ⟨rfl, rfl⟩ | ⟨rfl, rfl⟩ | ⟨rfl, rfl⟩ | ⟨rfl, rfl⟩ | ⟨rfl, rfl⟩ | ⟨rfl, rfl⟩ <;> rfl

theorem scanAtom_respelled {s rest : Text} {value : Json F} (scanned : scanAtom s = some (value, rest))
    (ended : Ended rest) : scanAtom (T s) = some (value, T rest) := by
  unfold scanAtom at scanned
  split at scanned
  · rename_i found
    cases scanned
    unfold scanAtom
    rw [scanKeyword_respelled respelling found]
  · rename_i absent
    obtain ⟨⟨numeral, rest'⟩, read, same⟩ := Option.map_eq_some_iff.mp scanned
    cases same
    have spelled := scanNumeral_respelled respelling read ended
    unfold scanAtom
    rw [scanKeyword_scanned spelled, spelled]
    rfl

/-- What is read of a text is read of the text spelled anew. -/
theorem scan_respelled (fuel : Nat) :
    (∀ fuel' s (value : Json F) rest, fuel ≤ fuel' → scanValue fuel s = some (value, rest) → Ended rest →
      scanValue fuel' (T s) = some (value, T rest)) ∧
    (∀ fuel' s (items : List (Json F)) rest, fuel ≤ fuel' → scanItems fuel s = some (items, rest) →
      scanItems fuel' (T s) = some (items, T rest)) ∧
    (∀ fuel' s (items : List (String × Json F)) rest, fuel ≤ fuel' → scanMembers fuel s = some (items, rest) →
      scanMembers fuel' (T s) = some (items, T rest)) := by
  induction fuel with
  | zero =>
      refine ⟨?_, ?_, ?_⟩
      · intro fuel' s value rest _ here
        rw [scanValue] at here
        cases here
      · intro fuel' s items rest _ here
        rw [scanItems] at here
        cases here
      · intro fuel' s items rest _ here
        rw [scanMembers] at here
        cases here
  | succ fuel ih =>
      obtain ⟨values, items, members⟩ := ih
      refine ⟨?_, ?_, ?_⟩
      · intro fuel' s value rest enough here ended
        obtain ⟨fuel', rfl⟩ : ∃ n, fuel' = n + 1 := ⟨fuel' - 1, by omega⟩
        have enough : fuel ≤ fuel' := by omega
        unfold scanValue at here
        split at here
        · obtain ⟨r, string, same⟩ := Option.map_eq_some_iff.mp here
          cases same
          rw [respelling.narrow _ _ (by decide), scanValue, scanString_respelled respelling string]
          rfl
        · rename_i rest'
          rw [respelling.narrow _ _ (by decide), scanValue]
          split at here
          · rename_i closed
            cases here
            rw [dropSpace_respelled respelling closed (by decide)]
            rfl
          · rename_i opened
            obtain ⟨r, inner, same⟩ := Option.map_eq_some_iff.mp here
            cases same
            have more := scanItems_ne inner
            rw [space_respelled respelling more]
            split
            · rename_i closed
              obtain ⟨after, closed⟩ := head_respelled respelling more (by decide) (by decide) closed
              exact absurd closed (opened after)
            · rw [items _ _ _ _ enough inner]
              rfl
        · rename_i rest'
          rw [respelling.narrow _ _ (by decide), scanValue]
          split at here
          · rename_i closed
            cases here
            rw [dropSpace_respelled respelling closed (by decide)]
            rfl
          · rename_i opened
            obtain ⟨r, inner, same⟩ := Option.map_eq_some_iff.mp here
            cases same
            have more := scanMembers_ne inner
            rw [space_respelled respelling more]
            split
            · rename_i closed
              obtain ⟨after, closed⟩ := head_respelled respelling more (by decide) (by decide) closed
              exact absurd closed (opened after)
            · rw [members _ _ _ _ enough inner]
              rfl
        · rename_i string list object
          have more := scanAtom_ne here
          unfold scanValue
          split
          · rename_i same
            obtain ⟨after, same⟩ := head_respelled respelling more (by decide) (by decide) same
            exact absurd same (string after)
          · rename_i same
            obtain ⟨after, same⟩ := head_respelled respelling more (by decide) (by decide) same
            exact absurd same (list after)
          · rename_i same
            obtain ⟨after, same⟩ := head_respelled respelling more (by decide) (by decide) same
            exact absurd same (object after)
          · exact scanAtom_respelled respelling here ended
      · intro fuel' s read rest enough here
        obtain ⟨fuel', rfl⟩ : ∃ n, fuel' = n + 1 := ⟨fuel' - 1, by omega⟩
        have enough : fuel ≤ fuel' := by omega
        unfold scanItems at here
        obtain ⟨item, first, here⟩ := Option.bind_eq_some_iff.mp here
        split at here
        · rename_i closed
          cases here
          have first' := values _ _ _ _ enough first (ended_of_dropWhile closed (by decide))
          exact scanItems_last first' (dropSpace_respelled respelling closed (by decide))
        · rename_i comma
          obtain ⟨r, later, same⟩ := Option.map_eq_some_iff.mp here
          cases same
          have first' := values _ _ _ _ enough first (ended_of_dropWhile comma (by decide))
          rw [scanItems_more first' (dropSpace_respelled respelling comma (by decide)),
            space_respelled respelling (scanItems_ne later), items _ _ _ _ enough later]
          rfl
        · cases here
      · intro fuel' s read rest enough here
        obtain ⟨fuel', rfl⟩ : ∃ n, fuel' = n + 1 := ⟨fuel' - 1, by omega⟩
        have enough : fuel ≤ fuel' := by omega
        unfold scanMembers at here
        split at here
        · obtain ⟨key, string, here⟩ := Option.bind_eq_some_iff.mp here
          rw [respelling.narrow _ _ (by decide)]
          have string' := scanString_respelled respelling string
          split at here
          · rename_i colon
            obtain ⟨value, first, here⟩ := Option.bind_eq_some_iff.mp here
            have colon' := dropSpace_respelled respelling colon (by decide)
            have gap := space_respelled respelling (scanValue_ne first)
            split at here
            · rename_i closed
              cases here
              have first' := values _ _ _ _ enough first (ended_of_dropWhile closed (by decide))
              exact scanMembers_last string' colon' (gap ▸ first') (dropSpace_respelled respelling closed (by decide))
            · rename_i comma
              obtain ⟨r, later, same⟩ := Option.map_eq_some_iff.mp here
              cases same
              have first' := values _ _ _ _ enough first (ended_of_dropWhile comma (by decide))
              rw [scanMembers_more string' colon' (gap ▸ first') (dropSpace_respelled respelling comma (by decide)),
                space_respelled respelling (scanMembers_ne later), members _ _ _ _ enough later]
              rfl
            · cases here
          · cases here
        · cases here

end Respelled

/-! ### Text that goes on -/

theorem respelling_more (more : Text) : Respelling (· ++ more) where
  narrow _ _ _ := rfl
  wide c s large := ⟨c, s ++ more, rfl, .inl large⟩
  inside c s large := by
    have quote : c ≠ '"' := by
      rintro rfl
      exact absurd large (by decide)
    have backslash : c ≠ '\\' := by
      rintro rfl
      exact absurd large (by decide)
    exact scanString_plain c (s ++ more) quote backslash (by omega)

theorem scanValue_more [FloatText F] {fuel fuel' : Nat} {s rest : Text} {value : Json F} (enough : fuel ≤ fuel')
    (scanned : scanValue fuel s = some (value, rest)) (ended : Ended rest) (more : Text) :
    scanValue fuel' (s ++ more) = some (value, rest ++ more) :=
  (scan_respelled (respelling_more more) fuel).1 _ _ _ _ enough scanned ended

/-- The fuel does not matter for what is read. -/
theorem scanValue_agree [FloatText F] {fuel fuel' : Nat} {s rest rest' : Text} {value value' : Json F}
    (scanned : scanValue fuel s = some (value, rest)) (ended : Ended rest)
    (scanned' : scanValue fuel' s = some (value', rest')) (ended' : Ended rest') :
    value = value' ∧ rest = rest' := by
  have one := scanValue_more (Nat.le_max_left fuel fuel') scanned ended []
  have other := scanValue_more (Nat.le_max_right fuel fuel') scanned' ended' []
  simp only [List.append_nil] at one other
  rw [one] at other
  exact Prod.mk.inj (Option.some.inj other)

/-! ### ASCII text -/

/-- A code unit of a character as `\uXXXX`. -/
def escapeUnit (n : Nat) : Text :=
  ['\\', 'u', hexChar (n / 4096), hexChar (n / 256 % 16), hexChar (n / 16 % 16), hexChar (n % 16)]

/-- What `ensure_ascii` writes for a character: two code units for one outside the basic plane. -/
def asciiChar (c : Char) : Text :=
  if c.toNat < 127 then [c]
  else if c.toNat < 0x10000 then escapeUnit c.toNat
  else escapeUnit (0xd800 + (c.toNat - 0x10000) / 0x400) ++ escapeUnit (0xdc00 + (c.toNat - 0x10000) % 0x400)

/-- The text of `json.dumps(value)` from that of `json.dumps(value, ensure_ascii=False)`: a
character that is not ASCII is inside a string. -/
def asciiText (s : Text) : Text := s.flatMap asciiChar

theorem hexValue_hexChar (d : Nat) (small : d < 16) : hexValue (hexChar d) = some d := by
  revert d
  decide

theorem hex4_unit (n : Nat) (small : n < 0x10000) :
    hex4 (hexChar (n / 4096)) (hexChar (n / 256 % 16)) (hexChar (n / 16 % 16)) (hexChar (n % 16)) = some n := by
  unfold hex4
  rw [hexValue_hexChar _ (by omega), hexValue_hexChar _ (by omega), hexValue_hexChar _ (by omega),
    hexValue_hexChar _ (by omega)]
  simp only [Option.bind_eq_bind, Option.bind_some, Option.pure_def, Option.some.injEq]
  omega

theorem char_range (c : Char) : c.toNat < 0xd800 ∨ (0xdfff < c.toNat ∧ c.toNat < 0x110000) := c.valid

theorem scanString_asciiChar (c : Char) (large : 127 ≤ c.toNat) (rest : Text) :
    scanString (asciiChar c ++ rest) = push c (scanString rest) := by
  have range := char_range c
  unfold asciiChar
  rw [if_neg (by omega)]
  split
  · rename_i plane
    have high : ¬highSurrogate c.toNat := by
      unfold highSurrogate
      omega
    have low : ¬lowSurrogate c.toNat := by
      unfold lowSurrogate
      omega
    simp only [escapeUnit, List.cons_append, List.nil_append]
    rw [scanString, hex4_unit _ plane]
    dsimp only
    rw [if_neg high, if_neg low, Char.ofNat_toNat]
  · rename_i beyond
    have high : highSurrogate (0xd800 + (c.toNat - 0x10000) / 0x400) := by
      unfold highSurrogate
      omega
    have low : lowSurrogate (0xdc00 + (c.toNat - 0x10000) % 0x400) := by
      unfold lowSurrogate
      omega
    have whole : 0x10000 + (0xd800 + (c.toNat - 0x10000) / 0x400 - 0xd800) * 0x400 +
        (0xdc00 + (c.toNat - 0x10000) % 0x400 - 0xdc00) = c.toNat := by omega
    simp only [escapeUnit, List.cons_append, List.nil_append]
    rw [scanString, hex4_unit _ (by omega)]
    dsimp only
    rw [if_pos high]
    split
    · rename_i same
      simp only [List.cons.injEq, true_and] at same
      obtain ⟨rfl, rfl, rfl, rfl, rfl⟩ := same
      rw [hex4_unit _ (by omega)]
      dsimp only
      rw [if_pos low, whole, Char.ofNat_toNat]
    · rename_i other
      exact absurd rfl (other _ _ _ _ _)

theorem respelling_ascii : Respelling asciiText where
  narrow c s small := by
    unfold asciiText
    rw [List.flatMap_cons, asciiChar, if_pos small]
    rfl
  wide c s large := by
    unfold asciiText
    rw [List.flatMap_cons, asciiChar, if_neg (by omega)]
    split
    · exact ⟨'\\', _, rfl, .inr rfl⟩
    · exact ⟨'\\', _, rfl, .inr rfl⟩
  inside c s large := by
    unfold asciiText
    rw [List.flatMap_cons, scanString_asciiChar c large]

theorem hexChar_small (d : Nat) (small : d < 16) : (hexChar d).toNat < 127 := by
  revert d
  decide

theorem asciiText_small (s : Text) : ∀ c ∈ asciiText s, c.toNat < 127 := by
  have unit : ∀ n, n < 0x10000 → ∀ c ∈ escapeUnit n, c.toNat < 127 := by
    intro n small c member
    simp only [escapeUnit, List.mem_cons, List.not_mem_nil, or_false] at member
    rcases member with rfl | rfl | rfl | rfl | rfl | rfl
    · decide
    · decide
    · exact hexChar_small _ (by omega)
    · exact hexChar_small _ (by omega)
    · exact hexChar_small _ (by omega)
    · exact hexChar_small _ (by omega)
  intro c member
  obtain ⟨d, _, member⟩ := List.mem_flatMap.mp member
  have range := char_range d
  unfold asciiChar at member
  split at member
  · rename_i small
    rw [List.mem_singleton] at member
    exact member ▸ small
  · split at member
    · exact unit _ (by omega) c member
    · rcases List.mem_append.mp member with first | second
      · exact unit _ (by omega) c first
      · exact unit _ (by omega) c second

theorem length_asciiText (s : Text) : s.length ≤ (asciiText s).length := by
  have char (c : Char) : 1 ≤ (asciiChar c).length := by
    unfold asciiChar
    split
    · exact Nat.le_refl _
    · split
      · exact Nat.le_of_ble_eq_true rfl
      · exact Nat.le_of_ble_eq_true rfl
  induction s with
  | nil => exact Nat.le_refl _
  | cons c s ih =>
      have := char c
      unfold asciiText at ih ⊢
      rw [List.flatMap_cons, List.length_append, List.length_cons]
      omega

theorem asciiText_append (first second : Text) : asciiText (first ++ second) = asciiText first ++ asciiText second :=
  List.flatMap_append

theorem asciiText_narrow {s : Text} (narrow : ∀ c ∈ s, c.toNat < 127) : asciiText s = s := by
  have spelled := append_respelled respelling_ascii narrow []
  rwa [List.append_nil, show asciiText [] = [] from rfl, List.append_nil] at spelled

/-- A value that is written in ASCII on a line of its own is read back. -/
theorem loads_asciiLine [FloatText F] {gap : Text} (spaces : ∀ c ∈ gap, isSpace c = true) (value : Json F)
    (distinct : Distinct value) : loads (asciiText (dumpsWith gap value) ++ ['\n']) = some value := by
  obtain ⟨c, rest, text, begins⟩ := dumpsWith_begins gap value
  have spelled : asciiText (dumpsWith gap value) ++ ['\n'] = asciiText (dumpsWith gap value ++ ['\n']) := by
    rw [asciiText_append]
    rfl
  have plain : (dumpsWith gap value ++ ['\n']).dropWhile isSpace = dumpsWith gap value ++ ['\n'] := by
    rw [text]
    exact dropWhile_begins c _ begins
  have ascii := space_respelled respelling_ascii (s := dumpsWith gap value ++ ['\n']) (by rw [plain]; simp)
  have written := scanValue_dumpsWith spaces value distinct _ (Nat.lt_succ_self _) ['\n']
    (stops_of inNumber '\n' [] (by decide))
  have longer := length_asciiText (dumpsWith gap value ++ ['\n'])
  rw [List.length_append, List.length_singleton] at longer
  have scanned := (scan_respelled respelling_ascii _).1
    ((asciiText (dumpsWith gap value ++ ['\n'])).length + 1) _ _ _ (by omega) written ⟨'\n', [], rfl, by decide⟩
  unfold loads
  rw [spelled, if_neg]
  · rw [ascii, plain, scanned]
    rfl
  · intro marked
    have small := asciiText_small _ _ (List.mem_of_head? marked)
    exact absurd small (by decide)

/-! ### The items of a document -/

/-- Of two values of a key the last stays. -/
theorem find?_ofPairs (pairs : Dict F) (key : String) : find? (ofPairs pairs) key = find? pairs.reverse key := by
  have fold (pairs d : Dict F) : find? (pairs.foldl (fun d p => set d p.1 p.2) d) key =
      (find? pairs.reverse key).or (find? d key) := by
    induction pairs generalizing d with
    | nil => rfl
    | cons item pairs ih =>
        rw [List.foldl_cons, ih, find?_set, List.reverse_cons, find?_append, find?_cons, find?_nil]
        by_cases same : key = item.1
        · rw [if_pos same, if_pos same.symm]
          cases find? pairs.reverse key <;> rfl
        · rw [if_neg same, if_neg (Ne.symm same)]
          cases find? pairs.reverse key <;> rfl
  unfold ofPairs
  rw [fold]
  exact Option.or_none

/-- Of one value of a key the first is the last. -/
theorem find?_reverse (pairs : Dict F) {key : String} (once : (pairs.map Prod.fst).count key ≤ 1) :
    find? pairs.reverse key = find? pairs key := by
  induction pairs with
  | nil => rfl
  | cons item pairs ih =>
      rw [List.map_cons, List.count_cons] at once
      rw [List.reverse_cons, find?_append, find?_cons, find?_cons, find?_nil]
      by_cases same : item.1 = key
      · have others : key ∉ pairs.map Prod.fst := by
          rw [← List.count_eq_zero]
          simp [same] at once
          omega
        have absent : find? pairs.reverse key = none := by
          rw [find?_eq_none]
          exact fun other member here => others (here ▸ List.mem_map_of_mem (List.mem_reverse.mp member))
        rw [absent, if_pos same, if_pos same]
        rfl
      · rw [ih (by omega), if_neg same, if_neg same]
        exact Option.or_none

section Document

variable [FloatText F]

theorem scanMembers_cases {fuel : Nat} {s rest : Text} {items : List (String × Json F)}
    (scanned : scanMembers fuel s = some (items, rest)) : ∃ fuel' text key after colon value later,
      s = '"' :: text ∧ scanString text = some (key, after) ∧ after.dropWhile isSpace = ':' :: colon ∧
      scanValue fuel' (colon.dropWhile isSpace) = some (value, later) ∧
      ((later.dropWhile isSpace = '}' :: rest ∧ items = [(String.ofList key, value)]) ∨
        ∃ next items', later.dropWhile isSpace = ',' :: next ∧
          scanMembers fuel' (next.dropWhile isSpace) = some (items', rest) ∧
          items = (String.ofList key, value) :: items') := by
  cases fuel with
  | zero =>
      rw [scanMembers] at scanned
      cases scanned
  | succ fuel =>
      unfold scanMembers at scanned
      split at scanned
      · obtain ⟨⟨key, after⟩, string, scanned⟩ := Option.bind_eq_some_iff.mp scanned
        dsimp only at scanned
        split at scanned
        · rename_i colon
          obtain ⟨⟨value, later⟩, first, scanned⟩ := Option.bind_eq_some_iff.mp scanned
          dsimp only at scanned
          refine ⟨fuel, _, key, after, _, value, later, rfl, string, colon, first, ?_⟩
          split at scanned
          · rename_i closed
            cases scanned
            exact .inl ⟨closed, rfl⟩
          · rename_i comma
            obtain ⟨⟨items', rest'⟩, more, same⟩ := Option.map_eq_some_iff.mp scanned
            cases same
            exact .inr ⟨_, items', comma, more, rfl⟩
          · cases scanned
        · cases scanned
      · cases scanned

/-- The items of the object that a text is, in the order of the text and with all values of a key. -/
def document (s : Text) : Option (Dict F) :=
  match s.dropWhile isSpace with
  | '{' :: rest =>
      match rest.dropWhile isSpace with
      | '}' :: rest => if (rest.dropWhile isSpace).isEmpty then some [] else none
      | members =>
          (scanMembers s.length members).bind fun r =>
            if (r.2.dropWhile isSpace).isEmpty then some r.1 else none
  | _ => none

/-- A text that begins an object is, if anything, an object of its items. -/
theorem loads_document {s rest : Text} {value : Json F} (loaded : loads s = some value)
    (opened : s.dropWhile isSpace = '{' :: rest) :
    ∃ items, document s = some items ∧ value = .obj (ofPairs items) := by
  unfold loads at loaded
  split at loaded
  · cases loaded
  rw [opened] at loaded
  unfold document
  rw [opened]
  split at loaded
  · rename_i value' after scanned
    rw [scanValue] at scanned
    split at loaded
    · rename_i blank
      cases loaded
      split at scanned
      · rename_i closed
        cases scanned
        refine ⟨[], ?_, rfl⟩
        simp only [closed]
        rw [if_pos blank]
      · rename_i more
        obtain ⟨⟨items, after'⟩, members, same⟩ := Option.map_eq_some_iff.mp scanned
        cases same
        refine ⟨items, ?_, rfl⟩
        simp only [members, Option.bind_some]
        rw [if_pos blank]
    · cases loaded
  · cases loaded

end Document

end AtrexAgent.Json
