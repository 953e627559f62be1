import Mathlib.Data.List.Basic
import Phrasebook.Json.Parse

/-!
# Reading what was quoted

What a reader does is said by three texts and a value: the text ahead, the value that it gives and
the text that it leaves. Two readers in a row are put together by `Reads.bind`, so that nothing
else has to be known of a reader. A text between quotes is read as the text that was quoted,
whatever follows it.
-/

namespace Phrasebook.Json

/-- A reader takes a text up to a rest and gives a value, at whatever offset the text stands. -/
def Reads {α : Type} (reader : Reader α) (text : List Char) (value : α) (rest : List Char) : Prop :=
  ∀ offset, ∃ reached, (ExceptT.run reader).run ⟨offset, text⟩ = pure (.ok value, ⟨reached, rest⟩)

namespace Reads

variable {α β : Type} {text middle rest : List Char}

theorem pure (value : α) (text : List Char) : Reads (pure value) text value text :=
  fun offset ↦ ⟨offset, rfl⟩

theorem bind {reader : Reader α} {next : α → Reader β} {value : α} {result : β}
    (first : Reads reader text value middle) (second : Reads (next value) middle result rest) :
    Reads (reader >>= next) text result rest := by
  intro offset
  obtain ⟨reached, hfirst⟩ := first offset
  obtain ⟨later, hsecond⟩ := second reached
  refine ⟨later, ?_⟩
  rw [ExceptT.run_bind, StateT.run_bind, hfirst, pure_bind]
  exact hsecond

/-- The text that a reader leaves does not depend on what becomes of its value. -/
theorem map {reader : Reader α} {value : α} (f : α → β) (h : Reads reader text value rest) :
    Reads (f <$> reader) text (f value) rest := by
  rw [map_eq_pure_bind]
  exact h.bind (.pure (f value) rest)

theorem get (text : List Char) (offset : Nat) :
    (ExceptT.run (MonadState.get : Reader Input)).run ⟨offset, text⟩ =
      Pure.pure (.ok ⟨offset, text⟩, ⟨offset, text⟩) := rfl

theorem peek? (text : List Char) : Reads Reader.peek? text text.head? text :=
  fun offset ↦ ⟨offset, rfl⟩

theorem next? (c : Char) (rest : List Char) : Reads Reader.next? (c :: rest) (some c) rest :=
  fun offset ↦ ⟨offset + c.utf8Size, rfl⟩

theorem skip (c : Char) (rest : List Char) : Reads Reader.skip (c :: rest) () rest :=
  fun offset ↦ ⟨offset + c.utf8Size, rfl⟩

theorem takeWhile (p : Char → Bool) (text : List Char) :
    Reads (Reader.takeWhile p) text (text.takeWhile p) (text.dropWhile p) :=
  fun offset ↦ ⟨offset + Text.size (text.takeWhile p), rfl⟩

theorem afterBlanks? (text : List Char) :
    Reads Reader.afterBlanks? text (text.dropWhile Reader.isBlank).head?
      (text.dropWhile Reader.isBlank) :=
  (takeWhile Reader.isBlank text).bind (peek? _)

end Reads

open Reader

variable {rest : List Char}

/-- The escape of a control character has four digits that denote its code. -/
theorem fourDigits_below :
    ∀ code < 32, (fourDigits code).length = 4 ∧
      (fourDigits code).all (fun c ↦ (Text.digitValue? 16 c).isSome) = true ∧
      Text.ofDigits 16 (fourDigits code) = code := by
  decide

theorem length_le_size (text : List Char) : text.length ≤ Text.size text := by
  induction text with
  | nil => exact Nat.le_refl 0
  | cons c text ih =>
    have hsize := c.utf8Size_pos
    rw [List.length_cons, Text.size]
    omega

/-- Four hexadecimal digits are read as the number that they write. -/
theorem reads_hexDigits {digits : List Char} (hlength : digits.length = 4)
    (hdigits : digits.all (fun c ↦ (Text.digitValue? 16 c).isSome) = true) (rest : List Char) :
    Reads hexDigits (digits ++ rest) (Text.ofDigits 16 digits) rest := by
  intro offset
  have htake : (digits ++ rest).take 4 = digits := by
    rw [← hlength, List.take_left]
  have hdrop : (digits ++ rest).drop 4 = rest := by
    rw [← hlength, List.drop_left]
  have hsize : ¬ Text.size (digits ++ rest) < 4 := by
    have hle := length_le_size (digits ++ rest)
    rw [List.length_append] at hle
    omega
  refine ⟨offset + 4, ?_⟩
  unfold hexDigits
  rw [ExceptT.run_bind, StateT.run_bind, Reads.get, pure_bind]
  dsimp only
  rw [htake, hdrop, if_neg hsize, if_pos hdigits]
  rfl

/-- The code of a control character is read as that character. -/
theorem reads_escapedCode {code : Nat} (hcode : code < 32) (rest : List Char) :
    Reads escapedCode (fourDigits code ++ rest) (Char.ofNat code) rest := by
  obtain ⟨hlength, hdigits, hvalue⟩ := fourDigits_below code hcode
  have hread := reads_hexDigits hlength hdigits rest
  rw [hvalue] at hread
  unfold escapedCode
  refine hread.bind ?_
  have hlow : (0xDC00 ≤ code && code ≤ 0xDFFF) = false := by
    rw [Bool.and_eq_false_iff]
    exact .inl (decide_eq_false (by omega))
  have hplain : (code < 0xD800 || 0xDBFF < code : Bool) = true := by
    rw [Bool.or_eq_true]
    exact .inl (decide_eq_true (by omega))
  rw [hlow, if_neg Bool.false_ne_true, hplain, if_pos rfl]
  exact .pure _ _

/-- A mark behind a backslash is read as the character that it stands for. -/
theorem reads_plainEscape {mark meant : Char} (hmark : mark ≠ 'u')
    (hmeant : plainEscape? mark = some meant) : Reads escaped (mark :: rest) meant rest := by
  unfold escaped
  refine (Reads.next? mark rest).bind ?_
  split
  · next hnone => cases hnone
  · next hu => exact absurd (Option.some.inj hu) hmark
  · next c hc =>
    cases hc
    rw [hmeant]
    exact .pure _ _

theorem reads_codeEscape {code : Nat} (hcode : code < 32) (rest : List Char) :
    Reads escaped ('u' :: fourDigits code ++ rest) (Char.ofNat code) rest :=
  (Reads.next? 'u' _).bind (reads_escapedCode hcode rest)

/-- A character stands between quotes behind a backslash, or as it is. -/
theorem escapeChar_cases (c : Char) :
    (∃ tail, escapeChar c = '\\' :: tail ∧ ∀ rest, Reads escaped (tail ++ rest) c rest) ∨
      (escapeChar c = [c] ∧ c ≠ '"' ∧ c ≠ '\\' ∧ ¬ c.toNat < 32) := by
  unfold escapeChar
  split
  · exact .inl ⟨['"'], rfl, fun rest ↦ reads_plainEscape (by decide) rfl⟩
  · exact .inl ⟨['\\'], rfl, fun rest ↦ reads_plainEscape (by decide) rfl⟩
  · exact .inl ⟨['n'], rfl, fun rest ↦ reads_plainEscape (by decide) rfl⟩
  · exact .inl ⟨['r'], rfl, fun rest ↦ reads_plainEscape (by decide) rfl⟩
  · exact .inl ⟨['t'], rfl, fun rest ↦ reads_plainEscape (by decide) rfl⟩
  · next hquote hslash _ _ _ =>
    have hc := Char.ofNat_toNat c
    split
    · next hcode =>
      rw [hcode] at hc
      exact .inl ⟨['b'], rfl, fun rest ↦ reads_plainEscape (by decide) (congrArg some hc)⟩
    · split
      · next hcode =>
        rw [hcode] at hc
        exact .inl ⟨['f'], rfl, fun rest ↦ reads_plainEscape (by decide) (congrArg some hc)⟩
      · split
        · next hcode =>
          refine .inl ⟨_, rfl, fun rest ↦ ?_⟩
          have hread := reads_codeEscape hcode rest
          rwa [hc] at hread
        · next hcode => exact .inr ⟨rfl, hquote, hslash, hcode⟩

/-- A text is read as it was before its characters were escaped, up to the closing quote. -/
theorem reads_textChars (text rest : List Char) {room : Nat} (hroom : text.length < room) :
    Reads (textChars room) (text.flatMap escapeChar ++ '"' :: rest) text rest := by
  induction text generalizing room with
  | nil =>
    obtain ⟨room, rfl⟩ := Nat.exists_eq_add_one_of_ne_zero (Nat.ne_of_gt hroom)
    exact (Reads.next? '"' rest).bind (.pure [] rest)
  | cons c text ih =>
    obtain ⟨room, rfl⟩ := Nat.exists_eq_add_one_of_ne_zero (Nat.ne_of_gt (Nat.zero_lt_of_lt hroom))
    have hrest := ih (Nat.lt_of_succ_lt_succ hroom)
    rw [List.flatMap_cons, List.append_assoc]
    unfold textChars
    rcases escapeChar_cases c with ⟨tail, htail, hread⟩ | ⟨hplain, hquote, hslash, hcode⟩
    · rw [htail, List.cons_append]
      refine (Reads.next? '\\' _).bind ?_
      exact (hread _).bind (hrest.map (c :: ·))
    · rw [hplain, List.singleton_append]
      refine (Reads.next? c _).bind ?_
      split
      · next hnone => cases hnone
      · next h => exact absurd (Option.some.inj h) hquote
      · next h => exact absurd (Option.some.inj h) hslash
      · next d _ _ hd =>
        cases hd
        rw [if_neg hcode]
        exact hrest.map (c :: ·)

theorem length_le_length_flatMap_escapeChar (text : List Char) :
    text.length ≤ (text.flatMap escapeChar).length := by
  induction text with
  | nil => exact Nat.le_refl 0
  | cons c text ih =>
    have hpositive : 0 < (escapeChar c).length := by
      rcases escapeChar_cases c with ⟨tail, htail, -⟩ | ⟨hplain, -⟩
      · rw [htail, List.length_cons]
        exact Nat.succ_pos _
      · rw [hplain]
        exact Nat.one_pos
    rw [List.flatMap_cons, List.length_append, List.length_cons]
    omega

/-- A text between quotes is read as the text that was quoted. -/
theorem reads_textBody (text : String) (rest : List Char) :
    Reads textBody (text.toList.flatMap escapeChar ++ '"' :: rest) text rest := by
  have hlength := length_le_length_flatMap_escapeChar text.toList
  have hroom : text.toList.length <
      (text.toList.flatMap escapeChar ++ '"' :: rest).length + 1 := by
    rw [List.length_append]
    omega
  intro offset
  obtain ⟨reached, hchars⟩ := reads_textChars text.toList rest hroom offset
  refine ⟨reached, ?_⟩
  unfold textBody
  rw [ExceptT.run_bind, StateT.run_bind, Reads.get, pure_bind]
  dsimp only
  rw [ExceptT.run_bind, StateT.run_bind, hchars, pure_bind]
  dsimp only
  rw [String.ofList_toList]
  rfl

theorem toList_quote (text : String) :
    (quote text).toList = '"' :: text.toList.flatMap escapeChar ++ ['"'] :=
  String.toList_ofList

end Phrasebook.Json
