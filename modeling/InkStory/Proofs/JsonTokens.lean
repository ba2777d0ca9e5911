import InkStory.Json.Writer
import InkStory.Proofs.Numerals

/-! # Tokens read back

The text of a row of tokens is read as these tokens again, if no word or number is followed by
another token that its characters could run into. -/

namespace InkStory.Json

open List Option

variable {c : Char} {tokens row : List Token} {value : Int} {token : Token}

namespace Scan

theorem run_cons (start : List Token × Scan) (c : Char) (text : List Char) :
    run start (c :: text) = (step start.1 start.2 c).bind fun reached => run reached text := rfl

theorem run_append (start : List Token × Scan) (first second : List Char) :
    run start (first ++ second) = (run start first).bind fun reached => run reached second :=
  foldlM_append

end Scan

/-! ### Quoted texts -/

namespace Quoted

/-- A scan that is sound so far and stands at a plain character. -/
def plain (read : List Char) : Quoted := { read := read }

theorem step_plain (read : List Char) (unescaped : c ≠ '\\') (visible : 0x20 ≤ c.toNat) :
    (plain read).step c = some (plain (c :: read)) := by
  have shown : ¬c.toNat < 0x20 := Nat.not_lt.mpr visible
  simp [step, plain, unescaped, shown, push]

theorem hexValue?_hexDigit {digit : Nat} (small : digit < 16) :
    hexValue? (Token.hexDigit digit) = some digit := by
  have all : ∀ digit < 16, hexValue? (Token.hexDigit digit) = some digit := by decide
  exact all digit small

theorem pushUnit_control (control : c.toNat < 0x20) (quoted : Quoted) :
    quoted.pushUnit c.toNat = quoted.push c := by
  have high : ¬0xD800 ≤ c.toNat := by omega
  have low : ¬0xDC00 ≤ c.toNat := by omega
  simp [pushUnit, high, low]

end Quoted

namespace Scan

variable {text : List Char} {literal : Number.Literal}

/-- A control character is read back from the number of its code unit. -/
theorem run_control (control : c.toNat < 0x20) (read : List Char) :
    run (tokens, .quoted (.plain read))
        ['\\', 'u', '0', '0', Token.hexDigit (c.toNat / 16), Token.hexDigit (c.toNat % 16)] =
      some (tokens, .quoted (.plain (c :: read))) := by
  have high : Quoted.hexValue? (Token.hexDigit (c.toNat / 16)) = some (c.toNat / 16) :=
    Quoted.hexValue?_hexDigit (by omega)
  have low : Quoted.hexValue? (Token.hexDigit (c.toNat % 16)) = some (c.toNat % 16) :=
    Quoted.hexValue?_hexDigit (by omega)
  have whole : 16 * (c.toNat / 16) + c.toNat % 16 = c.toNat := Nat.div_add_mod c.toNat 16
  change run (tokens, .quoted { read := read, escape := .unit 1 0 })
    [Token.hexDigit (c.toNat / 16), Token.hexDigit (c.toNat % 16)] = _
  simp [run, step, Quoted.step, high, low, whole, Quoted.pushUnit_control control, Quoted.push,
    Quoted.plain]

theorem run_escape (c : Char) (read : List Char) :
    run (tokens, .quoted (.plain read)) (Token.escape c) =
      some (tokens, .quoted (.plain (c :: read))) := by
  unfold Token.escape
  iterate 7
    split
    · next same => subst same; rfl
  split
  · next control => exact run_control control read
  · next unquoted unescaped _ _ _ _ _ shown =>
    have plain := Quoted.step_plain read unescaped (Nat.not_lt.mp shown)
    simp [run, step, unquoted, plain]

theorem run_escaped (text read : List Char) :
    run (tokens, .quoted (.plain read)) (text.flatMap Token.escape) =
      some (tokens, .quoted (.plain (text.reverse ++ read))) := by
  induction text generalizing read with
  | nil => rfl
  | cons c text ih =>
    rw [flatMap_cons, run_append, run_escape, bind_some, ih]
    simp

/-- A quoted text is read back. -/
theorem run_string (text : String) :
    run (tokens, .between) (Token.chars (.string (some text))) =
      some (.string (some text) :: tokens, .between) := by
  have opened : step tokens .between '"' = some (tokens, .quoted (.plain [])) := rfl
  change run (tokens, .between) ('"' :: (text.toList.flatMap Token.escape ++ ['"'])) = _
  rw [run_cons, opened, bind_some, run_append, run_escaped]
  simp [run, step, Quoted.plain, Quoted.token]

/-! ### Numbers and words -/

theorem run_numeric (numeric : ∀ c ∈ text, isNumeric c) (read : List Char) :
    run (tokens, .number read) text = some (tokens, .number (text.reverse ++ read)) := by
  induction text generalizing read with
  | nil => rfl
  | cons c text ih =>
    have here : step tokens (.number read) c = some (tokens, .number (c :: read)) := by
      simp [step, numeric c mem_cons_self]
    rw [run_cons, here, bind_some, ih fun c member => numeric c (mem_cons_of_mem _ member)]
    simp

theorem isNumeric_of_isDigit (digit : c.isDigit) : isNumeric c := by
  simp [isNumeric, digit]

theorem numeric_signed {negative : Bool} (numeric : ∀ c ∈ text, isNumeric c) :
    ∀ c ∈ Number.signed negative text, isNumeric c := by
  unfold Number.signed
  split
  · intro c member
    rcases mem_cons.mp member with rfl | member
    · rfl
    · exact numeric c member
  · exact numeric

theorem numeric_literal (wellFormed : literal.WellFormed) :
    ∀ c ∈ literal.text, isNumeric c := by
  obtain ⟨negative, whole, fraction, exponent⟩ := literal
  refine numeric_signed fun c member => ?_
  rcases mem_append.mp member with member | member
  · exact isNumeric_of_isDigit (wellFormed.whole c member)
  rcases mem_append.mp member with member | member
  · cases fraction with
    | none => contradiction
    | some digits =>
      rcases mem_cons.mp member with rfl | member
      · rfl
      · exact isNumeric_of_isDigit ((wellFormed.fraction digits rfl).2 c member)
  · cases exponent with
    | none => contradiction
    | some exponent =>
      rcases mem_cons.mp member with rfl | member
      · rfl
      rcases mem_cons.mp member with rfl | member
      · split <;> rfl
      · exact isNumeric_of_isDigit (Text.isDigit_of_mem_ofNat member)

theorem start_digit (digit : c.isDigit) : start tokens c = some (tokens, .number [c]) := by
  have unpunctuated : punctuation? c = none := by
    unfold punctuation?
    split
    case h_7 => rfl
    all_goals exact absurd digit (by decide)
  have solid : isSpace c = false := by
    by_contra blank
    simp only [isSpace, Bool.not_eq_false, Bool.or_eq_true, beq_iff_eq] at blank
    rcases blank with ((rfl | rfl) | rfl) | rfl <;> exact absurd digit (by decide)
  have unquoted : c ≠ '"' := by
    rintro rfl
    exact absurd digit (by decide)
  simp [start, unpunctuated, solid, unquoted, digit]

/-- Behind the text of a literal, the scan still waits for the end of the number. -/
theorem run_literal (wellFormed : literal.WellFormed) :
    run (tokens, .between) literal.text = some (tokens, .number literal.text.reverse) := by
  have numeric := numeric_literal wellFormed
  have begun : ∃ first rest, literal.text = first :: rest ∧
      start tokens first = some (tokens, .number [first]) := by
    obtain ⟨negative, whole, fraction, exponent⟩ := literal
    obtain ⟨first, rest, rfl⟩ := exists_cons_of_ne_nil wellFormed.present
    cases negative with
    | true => exact ⟨'-', _, rfl, rfl⟩
    | false => exact ⟨first, _, rfl, start_digit (wellFormed.whole first mem_cons_self)⟩
  obtain ⟨first, rest, split, started⟩ := begun
  rw [split] at numeric ⊢
  have here : step tokens .between first = some (tokens, .number [first]) := started
  rw [run_cons, here, bind_some,
    run_numeric fun c member => numeric c (mem_cons_of_mem _ member)]
  simp

end Scan

/-! ### Rows of tokens -/

/-- A number that is written as a literal with a value. -/
def Number.Readable (number : Number) : Prop :=
  ∃ literal : Literal, literal.WellFormed ∧ number.chars = literal.text ∧
    (ofLiteral literal).isSome

/-- What a number is read back as. -/
def Number.reread (number : Number) : Number :=
  ((literal? number.chars).bind ofLiteral).getD number

namespace Number

theorem wellFormed_integer (negative : Bool) (value : Nat) :
    Literal.WellFormed ⟨negative, Text.ofNat value, none, none⟩ where
  whole := fun _ member => Text.isDigit_of_mem_ofNat member
  present := Text.ofNat_ne_nil value
  leading zero := by
    obtain rfl : value = 0 := by
      by_contra positive
      exact Text.head_ofNat (Nat.pos_of_ne_zero positive) zero
    rfl
  fraction := nofun

/-- An integer of 64 bits, signed or not. -/
def Fits (value : Int) : Prop := -(2 ^ 63 : Int) ≤ value ∧ value < 2 ^ 64

theorem ofLiteral_integer (fits : Fits value) :
    ofLiteral ⟨decide (value < 0), Text.ofNat value.natAbs, none, none⟩ = some (.integer value) := by
  obtain ⟨low, high⟩ := fits
  simp only [ofLiteral, ofInteger, Text.numeral_ofNat, decide_eq_true_eq]
  split
  · next negative =>
    have bounded : value.natAbs ≠ 0 ∧ value.natAbs ≤ Nat.pow 2 63 := by
      constructor
      · omega
      · change value.natAbs ≤ 2 ^ 63
        omega
    rw [if_pos bounded, some.injEq, integer.injEq]
    omega
  · next positive =>
    have bounded : value.natAbs < UInt64.size := by
      change value.natAbs < 2 ^ 64
      omega
    rw [if_pos bounded, some.injEq, integer.injEq]
    omega

theorem chars_integer (value : Int) :
    chars (.integer value) =
      Literal.text ⟨decide (value < 0), Text.ofNat value.natAbs, none, none⟩ := by
  simp [chars, Literal.text, decimalsText, markedText]

theorem readable_integer (fits : Fits value) : Readable (.integer value) :=
  ⟨_, wellFormed_integer _ _, chars_integer value, by rw [ofLiteral_integer fits]; rfl⟩

theorem reread_integer (fits : Fits value) : reread (.integer value) = .integer value := by
  rw [reread, chars_integer, literal?_text (wellFormed_integer _ _), bind_some,
    ofLiteral_integer fits, getD_some]

end Number

namespace Token

/-- What a token is read back as. -/
def reread : Token → Token
  | number value => number (value.map Number.reread)
  | token => token

/-- A token that is there in its text. -/
def Readable : Token → Prop
  | number value => ∃ found, value = some found ∧ found.Readable
  | string value => value.isSome
  | _ => True

/-- A token of one character that stands for nothing else. -/
def isPunctuation : Token → Bool
  | openArray | closeArray | openObject | closeObject | colon | comma => true
  | _ => false

/-- A token whose end shows only in what follows it. -/
def isOpenEnded : Token → Bool
  | null | bool _ | number _ => true
  | _ => false

/-- Two tokens that can stand next to each other. -/
def Separate (first second : Token) : Prop :=
  first.isOpenEnded = false ∨ second.isPunctuation = true

end Token

namespace Scan

variable {done : List Token} {scan : Scan}

theorem step_punctuation (punctuation : punctuation? c = some token)
    (ended : scan.finish tokens = some done) :
    step tokens scan c = some (token :: done, .between) := by
  have begun (tokens : List Token) : start tokens c = some (token :: tokens, .between) := by
    simp [start, punctuation]
  have apart : c.isLower = false ∧ isNumeric c = false := by
    unfold punctuation? at punctuation
    split at punctuation
    case h_7 => contradiction
    all_goals exact ⟨rfl, rfl⟩
  cases scan with
  | between =>
    cases ended
    exact begun tokens
  | word read => simp [step, apart.1, ended, begun]
  | number read => simp [step, apart.2, ended, begun]
  | quoted text => contradiction

/-- The text of a token is read as this token, whatever may stand before it. -/
theorem run_token (readable : token.Readable) (ended : scan.finish tokens = some done)
    (apart : scan = .between ∨ token.isPunctuation) :
    ∃ reached, run (tokens, scan) token.chars = some reached ∧
      reached.2.finish reached.1 = some (token.reread :: done) ∧
      (reached.2 = .between ∨ token.isOpenEnded) := by
  have punctuation {c : Char} {token : Token} (chars : token.chars = [c])
      (found : punctuation? c = some token) (same : token.reread = token) :
      ∃ reached, run (tokens, scan) token.chars = some reached ∧
        reached.2.finish reached.1 = some (token.reread :: done) ∧
        (reached.2 = .between ∨ token.isOpenEnded) := by
    refine ⟨(token :: done, .between), ?_, by rw [same]; rfl, .inl rfl⟩
    rw [chars, run_cons, step_punctuation found ended]
    rfl
  cases token with
  | openArray | closeArray | openObject | closeObject | colon | comma =>
    exact punctuation rfl rfl rfl
  | null =>
    obtain rfl : scan = .between := apart.resolve_right nofun
    cases ended
    exact ⟨(tokens, .word ['l', 'l', 'u', 'n']), rfl, rfl, .inr rfl⟩
  | bool value =>
    obtain rfl : scan = .between := apart.resolve_right nofun
    cases ended
    cases value with
    | false => exact ⟨(tokens, .word ['e', 's', 'l', 'a', 'f']), rfl, rfl, .inr rfl⟩
    | true => exact ⟨(tokens, .word ['e', 'u', 'r', 't']), rfl, rfl, .inr rfl⟩
  | number value =>
    obtain rfl : scan = .between := apart.resolve_right nofun
    cases ended
    obtain ⟨found, rfl, literal, wellFormed, chars, valued⟩ := readable
    have text : Token.chars (.number (some found)) = literal.text := chars
    refine ⟨(tokens, .number literal.text.reverse), ?_, ?_, .inr rfl⟩
    · rw [text, run_literal wellFormed]
    · obtain ⟨read, there⟩ := isSome_iff_exists.mp valued
      simp [finish, Number.literal?_text wellFormed, Token.reread, Number.reread, chars, there]
  | string value =>
    obtain rfl : scan = .between := apart.resolve_right nofun
    cases ended
    obtain ⟨text, rfl⟩ := isSome_iff_exists.mp readable
    exact ⟨_, run_string text, rfl, .inl rfl⟩

/-- The text of separate tokens is read as these tokens. -/
theorem run_tokens (readable : ∀ token ∈ row, token.Readable)
    (separate : row.IsChain Token.Separate) (ended : scan.finish tokens = some done)
    (apart : scan = .between ∨ row.head?.all Token.isPunctuation) :
    ∃ reached, run (tokens, scan) (row.flatMap Token.chars) = some reached ∧
      reached.2.finish reached.1 = some ((row.map Token.reread).reverse ++ done) := by
  induction row generalizing tokens scan done with
  | nil => exact ⟨(tokens, scan), rfl, ended⟩
  | cons token row ih =>
    obtain ⟨reached, first, finished, closed⟩ :=
      run_token (readable token mem_cons_self) ended apart
    have next : reached.2 = .between ∨ row.head?.all Token.isPunctuation := by
      rcases closed with closed | open_
      · exact .inl closed
      · refine .inr ?_
        cases row with
        | nil => rfl
        | cons second row =>
          have pair : token.Separate second := (isChain_cons_cons.mp separate).1
          exact pair.resolve_left (by simp [open_])
    obtain ⟨last, rest, complete⟩ :=
      ih (fun token member => readable token (mem_cons_of_mem _ member)) separate.tail
        finished next
    refine ⟨last, ?_, ?_⟩
    · rw [flatMap_cons, run_append, first, bind_some, rest]
    · rw [complete]
      simp

end Scan

/-- Separate tokens are read back from their text. -/
theorem tokens?_flatMap (readable : ∀ token ∈ row, token.Readable)
    (separate : row.IsChain Token.Separate) :
    tokens? (row.flatMap Token.chars) = some (row.map Token.reread) := by
  have started : Scan.finish [] .between = some ([] : List Token) := rfl
  obtain ⟨⟨tokens, scan⟩, run, ended⟩ := Scan.run_tokens readable separate started (.inl rfl)
  simp [tokens?, run, ended]

end InkStory.Json
