import ByteMachine.Json.Printer
import ByteMachine.Proofs.Hexadecimal
import ByteMachine.Proofs.JsonWords
/-!
# Scanning printed JSON

A printed value is scanned into the tokens that it was printed from, whatever stands
around it. Marks and quoted texts show where they end. A word does not: its last
character is known by the character behind it, so what follows a value has to be the end
of the text or a character that ends words. The printer sees to that in both layouts.

## Main statements

- `scanFrom_word`: a word is a token, if it ends where the text goes on.
- `scanFrom_quoted`: a quoted text is read as it was before its characters were escaped.
- `scan_print`: a value in either layout is scanned into its tokens.
-/

namespace ByteMachine.Json

/-! ## The tokens of values -/

mutual

/-- The tokens of a value. -/
def tokens : Json → List Token
  | null => [.word null]
  | bool value => [.word (bool value)]
  | integer value => [.word (integer value)]
  | real spelling => [.word (real spelling)]
  | text value => [.text value]
  | array [] => [.openArray, .closeArray]
  | array (item :: rest) => .openArray :: (item.tokens ++ itemTokens rest ++ [.closeArray])
  | object [] => [.openObject, .closeObject]
  | object ((key, value) :: rest) =>
    .openObject :: .text key :: .colon ::
      (value.tokens ++ memberTokens rest ++ [.closeObject])

/-- The tokens of the further items of an array. -/
def itemTokens : List Json → List Token
  | [] => []
  | item :: rest => .comma :: (item.tokens ++ itemTokens rest)

/-- The tokens of the further members of an object. -/
def memberTokens : List (String × Json) → List Token
  | [] => []
  | (key, value) :: rest => .comma :: .text key :: .colon :: (value.tokens ++ memberTokens rest)

end

mutual

/-- Whether the spelling of each real in a value is that of a real. -/
def Spelt : Json → Prop
  | real spelling => word? spelling.toList = some (real spelling)
  | array items => ItemsSpelt items
  | object members => MembersSpelt members
  | _ => True

/-- Whether all items are `Spelt`. -/
def ItemsSpelt : List Json → Prop
  | [] => True
  | item :: rest => item.Spelt ∧ ItemsSpelt rest

/-- Whether the values of all members are `Spelt`. -/
def MembersSpelt : List (String × Json) → Prop
  | [] => True
  | (_, value) :: rest => value.Spelt ∧ MembersSpelt rest

end

/-! ## Scanning from anywhere -/

/-- The tokens that a scanner has at the end of a text. -/
def Scanner.scan (scanner : Scanner) (text : List Char) : Option (List Token) := do
  let last ← text.foldlM Scanner.read scanner
  last.finish

/-- The tokens at the end of a text that starts between two tokens; those in front of it are
    given, last one first. -/
def scanFrom (before : List Token) (text : List Char) : Option (List Token) :=
  Scanner.scan ⟨.between, before⟩ text

variable {before : List Token} {text : List Char} {done : List Char} {c : Char}

theorem Scanner.scan_cons {scanner next : Scanner} (h : scanner.read c = some next) :
    scanner.scan (c :: text) = next.scan text := by
  simp [Scanner.scan, List.foldlM_cons, h]

theorem scanFrom_nil : scanFrom before [] = some before.reverse := rfl

theorem scanFrom_space (h : isSpace c = true) :
    scanFrom before (c :: text) = scanFrom before text := by
  apply Scanner.scan_cons
  have hquote : c ≠ '\x22' := by
    rintro rfl
    cases h
  simp [Scanner.read, Mode.read, Mode.readBetween, hquote, h]

theorem scanFrom_mark (token : Token) (h : mark? c = some token) :
    scanFrom before (c :: text) = scanFrom (token :: before) text := by
  apply Scanner.scan_cons
  have hquote : c ≠ '\x22' := by
    rintro rfl
    cases h
  have hspace : isSpace c = false := by
    by_contra hspace
    simp only [isSpace, Bool.not_eq_false, Bool.or_eq_true, decide_eq_true_eq] at hspace
    rcases hspace with ((rfl | rfl) | rfl) | rfl <;> cases h
  simp [Scanner.read, Mode.read, Mode.readBetween, hquote, hspace, h]

/-! ## Words -/

/-- Whether a word ends in front of a text: at the end of the text itself, or at a character
    that ends words. -/
def EndsWords (text : List Char) : Prop :=
  ∀ c ∈ text.head?, endsWord c = true

theorem endsWords_nil : EndsWords [] := by
  simp [EndsWords]

theorem endsWords_cons (h : endsWord c = true) : EndsWords (c :: text) := by
  simpa [EndsWords] using h

theorem scan_word_append {cs : List Char} (h : ∀ c ∈ cs, endsWord c = false) :
    Scanner.scan ⟨.word done, before⟩ (cs ++ text)
      = Scanner.scan ⟨.word (cs.reverse ++ done), before⟩ text := by
  induction cs generalizing done with
  | nil => rfl
  | cons c cs ih =>
    obtain ⟨hc, hcs⟩ := List.forall_mem_cons.mp h
    have hread : Scanner.read ⟨.word done, before⟩ c = some ⟨.word (c :: done), before⟩ := by
      simp [Scanner.read, Mode.read, hc]
    rw [List.cons_append, Scanner.scan_cons hread, ih hcs]
    simp

/-- A word that has come to its end is a token. -/
theorem scan_word_of_endsWords {value : Json} (hword : word? done.reverse = some value)
    (hends : EndsWords text) :
    Scanner.scan ⟨.word done, before⟩ text = scanFrom (.word value :: before) text := by
  cases text with
  | nil => simp [scanFrom, Scanner.scan, Scanner.finish, hword]
  | cons c text =>
    have hc : endsWord c = true := hends c rfl
    -- The character behind the word is read as if it stood between tokens.
    have hread : Scanner.read ⟨.word done, before⟩ c
        = Scanner.read ⟨.between, .word value :: before⟩ c := by
      simp [Scanner.read, Mode.read, hc, hword]
    simp only [scanFrom, Scanner.scan, List.foldlM_cons, hread]

theorem scanFrom_word {cs : List Char} {value : Json} (hword : word? cs = some value)
    (hends : EndsWords text) :
    scanFrom before (cs ++ text) = scanFrom (.word value :: before) text := by
  have hplain := endsWord_of_word? hword
  cases cs with
  | nil => cases hword
  | cons c cs =>
    obtain ⟨hc, hcs⟩ := List.forall_mem_cons.mp hplain
    simp only [endsWord, Bool.or_eq_false_iff, decide_eq_false_iff_not] at hc
    obtain ⟨⟨hquote, hspace⟩, hmark⟩ := hc
    have hread : Scanner.read ⟨.between, before⟩ c = some ⟨.word [c], before⟩ := by
      rw [Option.isSome_eq_false_iff, Option.isNone_iff_eq_none] at hmark
      simp [Scanner.read, Mode.read, Mode.readBetween, hquote, hspace, hmark]
    rw [scanFrom, List.cons_append, Scanner.scan_cons hread, scan_word_append hcs]
    apply scan_word_of_endsWords _ hends
    simpa using hword

/-! ## Quoted texts -/

theorem scan_unit {count value digit : Nat} {high : Option Nat} (hcount : count < 3)
    (hdigit : Numeral.hexValue? c = some digit) :
    Scanner.scan ⟨.unit done high count value, before⟩ (c :: text)
      = Scanner.scan ⟨.unit done high (count + 1) (16 * value + digit), before⟩ text := by
  apply Scanner.scan_cons
  simp [Scanner.read, Mode.read, hdigit, hcount]

/-- The fourth digit completes a unit; one below the surrogates is a character. -/
theorem scan_unit_last {value digit : Nat} (hdigit : Numeral.hexValue? c = some digit)
    (hvalue : 16 * value + digit < 0xD800) :
    Scanner.scan ⟨.unit done none 3 value, before⟩ (c :: text)
      = Scanner.scan ⟨.text (Char.ofNat (16 * value + digit) :: done), before⟩ text := by
  apply Scanner.scan_cons
  have hhigh : ¬(0xD800 ≤ 16 * value + digit ∧ 16 * value + digit < 0xDC00) := by omega
  have hlow : ¬(0xDC00 ≤ 16 * value + digit ∧ 16 * value + digit < 0xE000) := by omega
  have hafter : Mode.afterUnit done none (16 * value + digit)
      = some (.text (Char.ofNat (16 * value + digit) :: done)) := by
    simp only [Mode.afterUnit]
    rw [if_neg hhigh, if_neg hlow]
  simp [Scanner.read, Mode.read, hdigit, hafter]

/-- A character inside quotation marks is read as it was before it was escaped. -/
theorem scan_escaped :
    Scanner.scan ⟨.text done, before⟩ (escaped c ++ text)
      = Scanner.scan ⟨.text (c :: done), before⟩ text := by
  unfold escaped
  split_ifs with hquote hbackslash hn hr ht hb hf hcontrol
  · subst hquote
    rfl
  · subst hbackslash
    rfl
  · subst hn
    rfl
  · subst hr
    rfl
  · subst ht
    rfl
  · subst hb
    rfl
  · subst hf
    rfl
  · have hhigh : Numeral.hexValue? (hexDigit (c.toNat / 16)) = some (c.toNat / 16) :=
      (Numeral.hexValue?_digitChar (by omega)).1
    have hlow : Numeral.hexValue? (hexDigit (c.toNat % 16)) = some (c.toNat % 16) :=
      (Numeral.hexValue?_digitChar (by omega)).1
    have hvalue : 16 * (c.toNat / 16) + c.toNat % 16 = c.toNat := by omega
    have hunit : Scanner.scan ⟨.text done, before⟩
        (['\x5c', 'u', '0', '0', hexDigit (c.toNat / 16), hexDigit (c.toNat % 16)] ++ text)
        = Scanner.scan ⟨.unit done none 2 0, before⟩
          (hexDigit (c.toNat / 16) :: hexDigit (c.toNat % 16) :: text) := rfl
    rw [hunit, scan_unit (by decide) hhigh, Nat.mul_zero, Nat.zero_add,
      scan_unit_last hlow (by omega), hvalue, Char.ofNat_toNat]
  · apply Scanner.scan_cons
    simp [Scanner.read, Mode.read, hquote, hbackslash, hcontrol]

theorem scan_flatMap_escaped (cs : List Char) :
    Scanner.scan ⟨.text done, before⟩ (cs.flatMap escaped ++ text)
      = Scanner.scan ⟨.text (cs.reverse ++ done), before⟩ text := by
  induction cs generalizing done with
  | nil => rfl
  | cons c cs ih =>
    rw [List.flatMap_cons, List.append_assoc, scan_escaped, ih]
    simp

/-- A quoted text is read as it was before its characters were escaped. -/
theorem scanFrom_quoted (value : String) :
    scanFrom before (quoted value ++ text) = scanFrom (.text value :: before) text := by
  have hopen : Scanner.read ⟨.between, before⟩ '\x22' = some ⟨.text [], before⟩ := rfl
  have hclose : Scanner.read ⟨.text (value.toList.reverse ++ []), before⟩ '\x22'
      = some ⟨.between, .text value :: before⟩ := by
    simp [Scanner.read, Mode.read]
  rw [scanFrom, quoted, List.cons_append, Scanner.scan_cons hopen, List.append_assoc,
    scan_flatMap_escaped, List.singleton_append, Scanner.scan_cons hclose]
  rfl

/-! ## Printed values -/

theorem scanFrom_lineBreak (layout : Layout) (depth : Nat) :
    scanFrom before (layout.lineBreak depth ++ text) = scanFrom before text := by
  cases layout with
  | compact => rfl
  | indented =>
    rw [Layout.lineBreak, List.cons_append, scanFrom_space (by decide)]
    induction 2 * depth with
    | zero => rfl
    | succ count ih => rw [List.replicate_succ, List.cons_append, scanFrom_space (by decide), ih]

theorem scanFrom_colon (layout : Layout) :
    scanFrom before (layout.colon ++ text) = scanFrom (.colon :: before) text := by
  cases layout with
  | compact => exact scanFrom_mark _ rfl
  | indented => exact (scanFrom_mark _ rfl).trans (scanFrom_space (by decide))

theorem endsWords_lineBreak (layout : Layout) (depth : Nat) (h : endsWord c = true) :
    EndsWords (layout.lineBreak depth ++ c :: text) := by
  cases layout with
  | compact => exact endsWords_cons h
  | indented => exact endsWords_cons (by decide)

theorem endsWords_printItems (layout : Layout) (depth : Nat) (items : List Json)
    (h : EndsWords text) : EndsWords (printItems layout depth items ++ text) := by
  cases items with
  | nil => simpa only [printItems, List.nil_append] using h
  | cons item rest =>
    rw [printItems]
    exact endsWords_cons (by decide)

theorem endsWords_printMembers (layout : Layout) (depth : Nat) (members : List (String × Json))
    (h : EndsWords text) : EndsWords (printMembers layout depth members ++ text) := by
  rcases members with _ | ⟨⟨key, value⟩, rest⟩
  · simpa only [printMembers, List.nil_append] using h
  · rw [printMembers]
    exact endsWords_cons (by decide)

mutual

/-- A printed value is scanned into its tokens wherever it stands, if words end behind it. -/
theorem scanFrom_print (layout : Layout) (depth : Nat) (before : List Token)
    (text : List Char) : (value : Json) → value.Spelt → EndsWords text →
    scanFrom before (print layout depth value ++ text)
      = scanFrom (value.tokens.reverse ++ before) text
  | null, _, hends => scanFrom_word rfl hends
  | bool true, _, hends => scanFrom_word rfl hends
  | bool false, _, hends => scanFrom_word rfl hends
  | integer value, _, hends => scanFrom_word (word?_repr value) hends
  | real spelling, hspelt, hends => by
    simp only [Spelt] at hspelt
    exact scanFrom_word hspelt hends
  | .text value, _, _ => scanFrom_quoted value
  | array [], _, _ => (scanFrom_mark _ rfl).trans (scanFrom_mark _ rfl)
  | array (item :: rest), hspelt, _ => by
    obtain ⟨hitem, hrest⟩ : item.Spelt ∧ ItemsSpelt rest := by
      simpa only [Spelt, ItemsSpelt] using hspelt
    have hclose : EndsWords (layout.lineBreak depth ++ ']' :: text) :=
      endsWords_lineBreak layout depth (by decide)
    simp only [print, tokens, List.cons_append, List.append_assoc, List.nil_append]
    rw [scanFrom_mark .openArray rfl, scanFrom_lineBreak,
      scanFrom_print layout (depth + 1) _ _ item hitem (endsWords_printItems _ _ rest hclose),
      scanFrom_printItems layout (depth + 1) _ _ rest hrest hclose, scanFrom_lineBreak,
      scanFrom_mark .closeArray rfl]
    simp
  | object [], _, _ => (scanFrom_mark _ rfl).trans (scanFrom_mark _ rfl)
  | object ((key, value) :: rest), hspelt, _ => by
    obtain ⟨hvalue, hrest⟩ : value.Spelt ∧ MembersSpelt rest := by
      simpa only [Spelt, MembersSpelt] using hspelt
    have hclose : EndsWords (layout.lineBreak depth ++ '\x7d' :: text) :=
      endsWords_lineBreak layout depth (by decide)
    simp only [print, tokens, List.cons_append, List.append_assoc, List.nil_append]
    rw [scanFrom_mark .openObject rfl, scanFrom_lineBreak, scanFrom_quoted,
      scanFrom_colon,
      scanFrom_print layout (depth + 1) _ _ value hvalue (endsWords_printMembers _ _ rest hclose),
      scanFrom_printMembers layout (depth + 1) _ _ rest hrest hclose, scanFrom_lineBreak,
      scanFrom_mark .closeObject rfl]
    simp

theorem scanFrom_printItems (layout : Layout) (depth : Nat) (before : List Token)
    (text : List Char) : (items : List Json) → ItemsSpelt items → EndsWords text →
    scanFrom before (printItems layout depth items ++ text)
      = scanFrom ((itemTokens items).reverse ++ before) text
  | [], _, _ => rfl
  | item :: rest, hspelt, hends => by
    obtain ⟨hitem, hrest⟩ : item.Spelt ∧ ItemsSpelt rest := by
      simpa only [ItemsSpelt] using hspelt
    simp only [printItems, itemTokens, List.cons_append, List.append_assoc]
    rw [scanFrom_mark .comma rfl, scanFrom_lineBreak,
      scanFrom_print layout depth _ _ item hitem (endsWords_printItems _ _ rest hends),
      scanFrom_printItems layout depth _ _ rest hrest hends]
    simp

theorem scanFrom_printMembers (layout : Layout) (depth : Nat) (before : List Token)
    (text : List Char) : (members : List (String × Json)) → MembersSpelt members →
    EndsWords text →
    scanFrom before (printMembers layout depth members ++ text)
      = scanFrom ((memberTokens members).reverse ++ before) text
  | [], _, _ => rfl
  | (key, value) :: rest, hspelt, hends => by
    obtain ⟨hvalue, hrest⟩ : value.Spelt ∧ MembersSpelt rest := by
      simpa only [MembersSpelt] using hspelt
    simp only [printMembers, memberTokens, List.cons_append, List.append_assoc]
    rw [scanFrom_mark .comma rfl, scanFrom_lineBreak, scanFrom_quoted, scanFrom_colon,
      scanFrom_print layout depth _ _ value hvalue (endsWords_printMembers _ _ rest hends),
      scanFrom_printMembers layout depth _ _ rest hrest hends]
    simp

end

/-- A value in either layout is scanned into its tokens. -/
theorem scan_print (layout : Layout) (depth : Nat) {value : Json} (h : value.Spelt) :
    scan (print layout depth value) = some value.tokens := by
  have hprint := scanFrom_print layout depth [] [] value h endsWords_nil
  rw [List.append_nil, List.append_nil, scanFrom_nil, List.reverse_reverse] at hprint
  exact hprint

end ByteMachine.Json
