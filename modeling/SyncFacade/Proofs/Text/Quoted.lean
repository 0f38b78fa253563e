import SyncFacade.Proofs.Text.Brackets
import SyncFacade.Text.Quoted
import Mathlib.Algebra.Group.Nat.Defs

/-! The reading of quoted literals. A literal of a text or of a byte string is read as the codes of its characters,
escaped ones included, up to the quote that closes it. What is quoted is read back, whatever stands behind it. -/
namespace SyncFacade.Text

/-- What is asked of each character in a list is decided one by one. Found by itself, the decision for all
characters would go through every character that there is. -/
theorem forall_mem_of_all {cs : List Char} {p : Char → Prop} [DecidablePred p] (all : cs.all (p ·) = true) :
    ∀ c ∈ cs, p c := by
  simpa using all

theorem toNat_ofNat_of_valid {n : Nat} (valid : n.isValidChar) : (Char.ofNat n).toNat = n := by
  have same : Char.ofNat n = Char.ofNatAux n valid := dif_pos valid
  rw [same]
  rfl

def hexValue? (c : Char) : Option Nat :=
  if c.isDigit then some (c.toNat - '0'.toNat)
  else if 'a' ≤ c && c ≤ 'f' then some (c.toNat - 'a'.toNat + 10)
  else if 'A' ≤ c && c ≤ 'F' then some (c.toNat - 'A'.toNat + 10)
  else none

/-- The number that so many hexadecimal digits write behind those that were read before. -/
def readHex : (width : Nat) → Nat → List Char → Option (Nat × List Char)
  | 0, n, cs => some (n, cs)
  | _ + 1, _, [] => none
  | w + 1, n, c :: cs => (hexValue? c).bind fun d => readHex w (16 * n + d) cs

/-- The code of the character that a content begins with, itself or as an escape. The longer escapes, and characters
beyond ASCII, stand in texts only. -/
def readCode (isText : Bool) : List Char → Option (Nat × List Char)
  | [] => none
  | '\\' :: c :: cs =>
    if c = '\\' || c = '\'' || c = '"' then some (c.toNat, cs)
    else if c = 'n' then some ('\n'.toNat, cs)
    else if c = 'r' then some ('\r'.toNat, cs)
    else if c = 't' then some ('\t'.toNat, cs)
    else if c = 'x' then readHex 2 0 cs
    else if isText && c = 'u' then readHex 4 0 cs
    else if isText && c = 'U' then readHex 8 0 cs
    else none
  | c :: cs =>
    if c = '\\' || c = '\n' || c = '\r' || c = '\x00' || (!isText && 0x80 ≤ c.toNat) then none else some (c.toNat, cs)

/-- The codes of a content up to the closing quote, and the text behind that. Their number bounds the steps. -/
def readContent (isText : Bool) (quote : Char) : (fuel : Nat) → List Char → Option (List Nat × List Char)
  | 0, _ => none
  | _ + 1, [] => none
  | fuel + 1, c :: cs =>
    if c = quote then some ([], cs)
    else (readCode isText (c :: cs)).bind fun (code, cs) =>
      (readContent isText quote fuel cs).map fun (codes, cs) => (code :: codes, cs)

/-- The codes of the quoted literal that a text begins with, and what stands behind it. -/
def readQuoted (isText : Bool) : List Char → Option (List Nat × List Char)
  | quote :: cs => if isQuote quote then readContent isText quote (cs.length + 1) cs else none
  | [] => none

theorem hexValue?_hexDigit : ∀ d < 16, hexValue? (hexDigit d) = some d := by decide

theorem hexDigits_succ (w n : Nat) : hexDigits (w + 1) n = hexDigit (n / 16 ^ w % 16) :: hexDigits w n := by
  induction w generalizing n with
  | zero => simp [hexDigits]
  | succ w ih => rw [hexDigits, ih, Nat.div_div_eq_div_mul, ← Nat.pow_succ', List.cons_append, hexDigits]

theorem readHex_hexDigits (w k n : Nat) (rest : List Char) :
    readHex w k (hexDigits w n ++ rest) = some (16 ^ w * k + n % 16 ^ w, rest) := by
  induction w generalizing k with
  | zero => simp [readHex, hexDigits, Nat.mod_one]
  | succ w ih =>
    rw [hexDigits_succ, List.cons_append, readHex, hexValue?_hexDigit _ (Nat.mod_lt _ (by decide)), Option.bind_some, ih,
      Nat.mod_pow_succ, Nat.pow_succ, Nat.mul_add, Nat.mul_assoc, Nat.add_assoc, Nat.add_comm (n % 16 ^ w)]

theorem readHex_of_lt {w n : Nat} (fits : n < 16 ^ w) (rest : List Char) :
    readHex w 0 (hexDigits w n ++ rest) = some (n, rest) := by
  rw [readHex_hexDigits, Nat.mod_eq_of_lt fits, Nat.mul_zero, Nat.zero_add]

/-- A spelling of a code: it is read as the code whatever stands behind it, and does not begin with the quote. -/
structure Spells (isText : Bool) (quote : Char) (cs : List Char) (code : Nat) : Prop where
  begins : ∃ c later, cs = c :: later ∧ c ≠ quote
  read : ∀ rest, readCode isText (cs ++ rest) = some (code, rest)

section Escapes

variable {isText : Bool} {quote : Char}

theorem spells_escapeCommon {c : Char} {cs : List Char} (quotes : isQuote quote = true)
    (escaped : escapeCommon quote c = some cs) : Spells isText quote cs c.toNat := by
  have other : '\\' ≠ quote := by
    rintro rfl
    contradiction
  unfold escapeCommon at escaped
  split at escaped
  · rename_i itself
    obtain rfl := Option.some.inj escaped
    have known : (c = '\\' || c = '\'' || c = '"') = true := by
      simp only [Bool.or_eq_true, decide_eq_true_eq, isQuote] at itself quotes ⊢
      grind
    exact ⟨⟨_, _, rfl, other⟩, fun rest => by simp [readCode, known]⟩
  · split at escaped
    · subst_vars
      obtain rfl := Option.some.inj escaped
      exact ⟨⟨_, _, rfl, other⟩, fun _ => rfl⟩
    · split at escaped
      · subst_vars
        obtain rfl := Option.some.inj escaped
        exact ⟨⟨_, _, rfl, other⟩, fun _ => rfl⟩
      · split at escaped
        · subst_vars
          obtain rfl := Option.some.inj escaped
          exact ⟨⟨_, _, rfl, other⟩, fun _ => rfl⟩
        · contradiction

theorem spells_escapeCode {n : Nat} (quotes : isQuote quote = true) (fits : n < 0x100 ∨ isText = true ∧ n < 0x110000) :
    Spells isText quote (escapeCode n) n := by
  have other : '\\' ≠ quote := by
    rintro rfl
    contradiction
  unfold escapeCode
  split
  · rename_i short
    refine ⟨⟨_, _, rfl, other⟩, fun rest => ?_⟩
    have fitsTwo : n < 16 ^ 2 := by simpa using short
    simpa [readCode] using readHex_of_lt fitsTwo rest
  · rename_i long
    obtain ⟨wide, bounded⟩ := fits.resolve_left long
    split
    · rename_i short
      refine ⟨⟨_, _, rfl, other⟩, fun rest => ?_⟩
      have fitsFour : n < 16 ^ 4 := by simpa using short
      simpa [readCode, wide] using readHex_of_lt fitsFour rest
    · refine ⟨⟨_, _, rfl, other⟩, fun rest => ?_⟩
      have fitsEight : n < 16 ^ 8 := by
        simp only [Nat.reducePow]
        omega
      simpa [readCode, wide] using readHex_of_lt fitsEight rest

/-- A character that needs no escape is spelled by itself, unless it is a control or beyond what a literal shows. -/
theorem spells_itself {c : Char} (plain : escapeCommon quote c = none) (zero : c ≠ '\x00')
    (fits : isText = true ∨ c.toNat < 0x80) : Spells isText quote [c] c.toNat := by
  have unescaped : c ≠ quote ∧ c ≠ '\\' ∧ c ≠ '\n' ∧ c ≠ '\r' := by
    unfold escapeCommon at plain
    grind
  obtain ⟨other, backslash, feed, carriage⟩ := unescaped
  refine ⟨⟨c, [], rfl, other⟩, fun rest => ?_⟩
  have shown : (c = '\\' || c = '\n' || c = '\r' || c = '\x00' || (!isText && decide (0x80 ≤ c.toNat))) = false := by
    grind
  rw [List.singleton_append, readCode.eq_def]
  split
  · contradiction
  · grind
  · grind

theorem spells_escapeChar (quotes : isQuote quote = true) (c : Char) :
    Spells true quote (escapeChar quote c) c.toNat := by
  unfold escapeChar
  cases escaped : escapeCommon quote c with
  | some cs => exact spells_escapeCommon quotes escaped
  | none =>
    rw [Option.getD_none]
    split
    · rename_i printable
      refine spells_itself escaped ?_ (.inl rfl)
      rintro rfl
      revert printable
      decide
    · exact spells_escapeCode quotes (.inr ⟨rfl, c.valid.elim (fun small => Nat.lt_trans small (by decide)) And.right⟩)

theorem spells_escapeByte (quotes : isQuote quote = true) (b : UInt8) :
    Spells false quote (escapeByte quote b) b.toNat := by
  have small : b.toNat < 0x100 := b.toNat_lt
  unfold escapeByte
  extract_lets c
  have code : c.toNat = b.toNat := by
    exact toNat_ofNat_of_valid (.inl (Nat.lt_trans small (by decide)))
  cases escaped : escapeCommon quote c with
  | some cs =>
    have spelled : Spells false quote cs c.toNat := spells_escapeCommon quotes escaped
    rwa [code] at spelled
  | none =>
    rw [Option.getD_none]
    split
    · rename_i printable
      simp only [Bool.and_eq_true, decide_eq_true_eq] at printable
      have shown : c ≠ '\x00' := fun zero => by
        have : c.toNat = 0 := by rw [zero]; rfl
        omega
      have spelled : Spells false quote [c] c.toNat := spells_itself escaped shown (.inr (by omega))
      rwa [code] at spelled
    · exact spells_escapeCode quotes (.inl small)

theorem readContent_flatMap {α : Type} {as : List α} {spell : α → List Char} {code : α → Nat} {fuel : Nat}
    (spells : ∀ a ∈ as, Spells isText quote (spell a) (code a)) (enough : (as.flatMap spell).length < fuel)
    (rest : List Char) :
    readContent isText quote fuel (as.flatMap spell ++ quote :: rest) = some (as.map code, rest) := by
  induction as generalizing fuel with
  | nil =>
    obtain ⟨fuel, rfl⟩ := Nat.exists_eq_add_of_lt enough
    simp [readContent]
  | cons a as ih =>
    obtain ⟨first, later⟩ := List.forall_mem_cons.mp spells
    obtain ⟨c, cs, spelled, other⟩ := first.begins
    have read := first.read (as.flatMap spell ++ quote :: rest)
    rw [List.flatMap_cons] at enough ⊢
    rw [List.append_assoc]
    rw [spelled, List.cons_append] at read enough ⊢
    obtain ⟨fuel, rfl⟩ := Nat.exists_eq_add_of_lt enough
    rw [readContent, if_neg other, read, Option.bind_some]
    dsimp only
    rw [ih later (by simp only [List.length_cons, List.length_append]; omega)]
    rfl

theorem isQuote_quoteFor (hasSingle hasDouble : Bool) : isQuote (quoteFor hasSingle hasDouble) = true := by
  unfold quoteFor
  split <;> rfl

theorem readQuoted_quoted (cs rest : List Char) : readQuoted true (quoted cs ++ rest) = some (cs.map Char.toNat, rest) := by
  have quotes := isQuote_quoteFor (cs.contains '\'') (cs.contains '"')
  rw [quoted, List.append_assoc, List.cons_append, List.singleton_append, readQuoted, if_pos quotes]
  exact readContent_flatMap (fun c _ => spells_escapeChar quotes c) (by simp only [List.length_append]; omega) rest

/-- Behind its mark a literal of bytes is read like that of a text. -/
theorem readQuoted_quotedBytes (bs : List UInt8) : ∃ quote literal, quotedBytes bs = 'b' :: quote :: literal ∧
    isQuote quote = true ∧ ∀ rest, readQuoted false (quote :: (literal ++ rest)) = some (bs.map UInt8.toNat, rest) := by
  have quotes := isQuote_quoteFor (bs.contains 0x27) (bs.contains 0x22)
  refine ⟨_, _, rfl, quotes, fun rest => ?_⟩
  rw [List.append_eq, List.append_assoc, List.singleton_append, readQuoted, if_pos quotes]
  exact readContent_flatMap (fun b _ => spells_escapeByte quotes b) (by simp only [List.length_append]; omega) rest

end Escapes
end SyncFacade.Text
