import BlockScript.Phrase.Reader
import BlockScript.Proofs.Text.TokenCuts
import BlockScript.Proofs.Vocabulary.Bytes
import BlockScript.Proofs.Vocabulary.Form

/-!
# Numbers and names

The words that expressions are made of: numbers in decimal digits, and names of letters.  Both are plain words, a
number reads as no reporter (`Reader.reporter?_eq_none_of_isNumeral`), and a table that knows nothing but names and
the properties of a sprite knows neither a number nor a text that splits at a sign.
-/

namespace BlockScript

open Text

/-! ### Numbers -/

/-- The decimal digits. -/
def digits : List Char :=
  ['0', '1', '2', '3', '4', '5', '6', '7', '8', '9']

/-- The characters of numbers. -/
def numeralChars : List Char :=
  '-' :: '.' :: digits

/-- One or more digits. -/
def AreDigits (t : Text) : Prop :=
  t ≠ [] ∧ ∀ c ∈ t, c ∈ digits

/-- A number: digits with a minus sign in front or a fraction behind, if it has them. -/
def IsNumeral (t : Text) : Prop :=
  ∃ minus whole fraction : Text, t = minus ++ (whole ++ fraction) ∧ (minus = [] ∨ minus = ['-']) ∧ AreDigits whole ∧
    (fraction = [] ∨ ∃ tail, fraction = '.' :: tail ∧ AreDigits tail)

theorem isPlain_of_mem_numeralChars : ∀ c ∈ numeralChars, IsPlain c :=
  forall_of_all (by decide)

namespace IsNumeral

variable {t : Text} (h : IsNumeral t)

include h

theorem chars : ∀ c ∈ t, c ∈ numeralChars := by
  obtain ⟨minus, whole, fraction, rfl, hminus, hwhole, hfraction⟩ := h
  intro c hc
  rcases List.mem_append.1 hc with hc | hc
  · rcases hminus with rfl | rfl
    · cases hc
    · obtain rfl := List.mem_singleton.1 hc
      exact List.mem_cons_self
  · rcases List.mem_append.1 hc with hc | hc
    · exact List.mem_cons_of_mem _ (List.mem_cons_of_mem _ (hwhole.2 c hc))
    · rcases hfraction with rfl | ⟨tail, rfl, htail⟩
      · cases hc
      · rcases List.mem_cons.1 hc with rfl | hc
        · exact List.mem_cons_of_mem _ List.mem_cons_self
        · exact List.mem_cons_of_mem _ (List.mem_cons_of_mem _ (htail.2 c hc))

theorem exists_digit : ∃ c ∈ t, c ∈ digits := by
  obtain ⟨minus, whole, fraction, rfl, -, ⟨hne, hdigits⟩, -⟩ := h
  obtain ⟨c, whole, rfl⟩ := List.exists_cons_of_ne_nil hne
  exact ⟨c, by simp, hdigits c List.mem_cons_self⟩

theorem isValid : (Token.word t).IsValid := by
  obtain ⟨c, hc, -⟩ := h.exists_digit
  exact ⟨List.ne_nil_of_mem hc, fun c hc => isPlain_of_mem_numeralChars c (h.chars c hc)⟩

/-- A number is read as one. -/
theorem isNumber : t.isNumber = true := by
  have hdecimal : ∀ c ∈ digits, isDecimalDigit c = true := forall_of_all (by decide)
  have htake {u v : Text} (hu : AreDigits u) (hv : ∀ c ∈ v.head?, isDecimalDigit c = false) :
      (u ++ v).takeWhile isDecimalDigit = u ∧ (u ++ v).dropWhile isDecimalDigit = v := by
    rw [List.takeWhile_append_of_pos fun c hc => hdecimal c (hu.2 c hc),
      List.dropWhile_append_of_pos fun c hc => hdecimal c (hu.2 c hc)]
    cases v with
    | nil => simp
    | cons c v => simp [hv c rfl]
  have hall {u : Text} (hu : AreDigits u) : isDigits u = true := by
    rw [isDigits, Bool.and_eq_true]
    exact ⟨by simpa using hu.1, List.all_eq_true.2 fun c hc => hdecimal c (hu.2 c hc)⟩
  obtain ⟨minus, whole, fraction, rfl, hminus, hwhole, hfraction⟩ := h
  have hafter : (after? ['-'] (minus ++ (whole ++ fraction))).getD (minus ++ (whole ++ fraction)) =
      whole ++ fraction := by
    rcases hminus with rfl | rfl
    · obtain ⟨c, whole, rfl⟩ := List.exists_cons_of_ne_nil hwhole.1
      have hc : c ≠ '-' := by
        rintro rfl
        exact absurd (hwhole.2 _ List.mem_cons_self) (by decide)
      have hnone : after? ['-'] (c :: (whole ++ fraction)) = none := by
        rw [Option.eq_none_iff_forall_not_mem]
        intro rest hrest
        obtain ⟨rfl, -⟩ := List.cons.inj (after?_eq_some_iff.1 hrest)
        exact hc rfl
      exact congrArg (Option.getD · (c :: (whole ++ fraction))) hnone
    · rw [after?_eq_some_iff.2 rfl]
      rfl
  unfold isNumber
  rw [hafter]
  rcases hfraction with rfl | ⟨tail, rfl, htail⟩
  · obtain ⟨hfirst, hrest⟩ := @htake whole [] hwhole nofun
    dsimp only
    rw [hfirst, hrest]
    exact hall hwhole
  · obtain ⟨hfirst, hrest⟩ := @htake whole ('.' :: tail) hwhole
      (fun c hc => by obtain rfl := Option.some.inj hc; decide)
    dsimp only
    rw [hfirst, hrest]
    simp [hall hwhole, hall htail]

end IsNumeral

/-! ### Names -/

/-- An alphanumeric character of any script that is no decimal digit. -/
def isLetter (c : Char) : Bool :=
  isAlphanumeric c && !isDecimalDigit c

/-- A word of letters. -/
def IsName (t : Text) : Prop :=
  t ≠ [] ∧ ∀ c ∈ t, isLetter c = true

/-- The letters of ASCII are letters. -/
theorem isLetter_of_isAlpha {c : Char} (h : c.isAlpha = true) : isLetter c = true := by
  have hascii : ∀ n < 0x80, (Char.ofNat n).isAlpha = true → isLetter (Char.ofNat n) = true := by decide
  have hc : c.toNat < 0x80 := by
    obtain hupper | hlower := Bool.or_eq_true_iff.1 (show (c.isUpper || c.isLower) = true from h)
    · have hle : c.val ≤ 'Z'.val := (of_decide_eq_true hupper).2
      exact Nat.lt_of_le_of_lt (UInt32.le_iff_toNat_le.1 hle) (by decide)
    · have hle : c.val ≤ 'z'.val := of_decide_eq_true (Bool.and_eq_true_iff.1 hlower).2
      exact Nat.lt_of_le_of_lt (UInt32.le_iff_toNat_le.1 hle) (by decide)
  have hletter := hascii c.toNat hc
  rw [Char.ofNat_toNat] at hletter
  exact hletter h

private theorem isBlank_of_isAlphanumeric {c : Char} (h : isAlphanumeric c = true) : isBlank c = false := by
  have hascii : ∀ n < 0x80, (Char.ofNat n).isAlphanum = true → isBlank (Char.ofNat n) = false := by decide
  have hothers : ∀ range ∈ alphanumericRanges, ∀ blank ∈ blankRanges, range.2 < blank.1 ∨ blank.2 < range.1 := by
    decide +kernel
  unfold isAlphanumeric at h
  split at h
  · rename_i hlt
    have hc := hascii c.toNat hlt
    rw [Char.ofNat_toNat] at hc
    exact hc h
  · obtain ⟨range, hrange, hin⟩ := List.any_eq_true.1 h
    rw [Bool.and_eq_true, decide_eq_true_eq, decide_eq_true_eq] at hin
    rw [isBlank, inRanges, List.any_eq_false]
    intro blank hblank hin'
    rw [Bool.and_eq_true, decide_eq_true_eq, decide_eq_true_eq] at hin'
    have hapart := hothers range hrange blank hblank
    omega

theorem isPlain_of_isLetter {c : Char} (h : isLetter c = true) : IsPlain c := by
  have halphanumeric : isAlphanumeric c = true := (Bool.and_eq_true_iff.1 h).1
  have hbracket (b : Bracket) : isAlphanumeric b.opener = false ∧ isAlphanumeric b.closer = false := by
    cases b <;> decide
  refine ⟨isBlank_of_isAlphanumeric halphanumeric, ?_, ?_⟩
  · rw [Option.eq_none_iff_forall_not_mem]
    intro b hb
    rw [Bracket.ofOpener?_eq_some_iff.1 hb, (hbracket b).1] at halphanumeric
    cases halphanumeric
  · rw [Option.eq_none_iff_forall_not_mem]
    intro b hb
    rw [Bracket.ofCloser?_eq_some_iff.1 hb, (hbracket b).2] at halphanumeric
    cases halphanumeric

theorem IsName.isValid {t : Text} (h : IsName t) : (Token.word t).IsValid :=
  ⟨h.1, fun c hc => isPlain_of_isLetter (h.2 c hc)⟩

private theorem not_isLetter_of_mem_digits : ∀ c ∈ digits, isLetter c = false :=
  forall_of_all (by decide)

/-! ### Words that do not split -/

namespace Arithmetic

/-- A word that is no operator does not split. -/
theorem split?_word {t : Text} (h : (Token.word t).IsValid) (hne : ∀ o ∈ sums ++ products, t ≠ o.sign) :
    split? t = none :=
  split?_eq_none (AreTokens.singleton h rfl) (List.forall_mem_singleton.2 hne)

theorem ne_sign_of_isNumeral {t : Text} (h : IsNumeral t) : ∀ o ∈ sums ++ products, t ≠ o.sign := by
  have hsigns : ∀ o ∈ sums ++ products, o.sign.all (· ∉ digits) = true := by decide
  rintro o ho rfl
  obtain ⟨c, hc, hdigit⟩ := h.exists_digit
  exact forall_of_all (hsigns o ho) c hc hdigit

theorem ne_sign_of_isName {t : Text} (h : IsName t) (hmod : t ≠ ['m', 'o', 'd']) :
    ∀ o ∈ sums ++ products, t ≠ o.sign := by
  have hsigns : ∀ o ∈ sums ++ products, o.sign = ['m', 'o', 'd'] ∨ o.sign.any (!isLetter ·) = true := by decide
  rintro o ho rfl
  rcases hsigns o ho with hsign | hletter
  · exact hmod hsign
  · obtain ⟨c, hc, hletter⟩ := List.any_eq_true.1 hletter
    rw [h.2 c hc] at hletter
    cases hletter

end Arithmetic

/-- A form that requires a character beyond those of numbers. -/
private def Form.isForeign (form : Form) : Bool :=
  form.any fun
    | .oneOf set => set.all (!numeralChars.contains ·)
    | _ => false

private theorem match?_eq_none_of_isForeign {form : Form} (hform : form.isForeign = true) {t : Text}
    (h : ∀ c ∈ t, c ∈ numeralChars) : form.match? t = none := by
  obtain ⟨p, hp, hforeign⟩ := List.any_eq_true.1 hform
  rw [Option.eq_none_iff_forall_not_mem]
  intro values hvalues
  cases p with
  | oneOf set =>
    obtain ⟨c, hc, hct⟩ := Form.exists_of_mem_match? hp hvalues
    have hout := List.all_eq_true.1 hforeign c hc
    rw [List.contains_iff_mem.2 (h c hct)] at hout
    cases hout
  | _ => cases hforeign

/-- A number reads as no reporter. -/
theorem Reader.reporter?_eq_none_of_isNumeral {t : Text} (h : IsNumeral t) : reporter? t = none := by
  have hpatterns : ∀ op ∈ Vocabulary.ofShapes [.reporter], ∀ form ∈ op.forms, form.isForeign = true := by
    simp only [Operation.forms_eq_ofString]
    decide +kernel
  have hloose : ∀ loose ∈ looseReporters, loose.2.isForeign = true := by decide +kernel
  have hlookup : Vocabulary.lookup [.reporter] t = none := by
    rw [Vocabulary.lookup, if_neg (List.cons_ne_nil _ _), Vocabulary.firstMatch?, List.findSome?_eq_none_iff]
    intro op hop
    rw [Option.map_eq_none_iff, Operation.match?, List.findSome?_eq_none_iff]
    exact fun form hform => match?_eq_none_of_isForeign (hpatterns op hop form hform) h.chars
  rw [reporter?, Arithmetic.split?_word h.isValid (Arithmetic.ne_sign_of_isNumeral h), hlookup]
  dsimp only
  rw [List.findSome?_eq_none_iff]
  intro loose hmem
  rw [match?_eq_none_of_isForeign (hloose loose hmem) h.chars, Option.map_none]

/-! ### Tables of names -/

namespace NameTable

/-- Beyond the properties of a sprite, the table holds names of letters only, none of them reserved. -/
def IsSimple (reserved : List Text) (table : NameTable) : Prop :=
  ∀ entry ∈ table.entries, entry ∈ builtins ∨ IsName entry.name.toList ∧ entry.name.toList ∉ reserved

variable {reserved : List Text} {table : NameTable} {t : Text}

/-- An entry is found under its name. -/
theorem mem_of_lookup {entry : KnownName} (h : table.lookup (String.ofList t) = some entry) :
    entry ∈ table.entries ∧ entry.name.toList = t := by
  have hname : (entry.name == String.ofList t) = true :=
    @List.find?_some _ (fun e : KnownName => e.name == String.ofList t) _ _ h
  exact ⟨List.mem_of_find?_eq_some h, by rw [eq_of_beq hname, String.toList_ofList]⟩

namespace IsSimple

variable (h : table.IsSimple reserved)

include h

private theorem lookup_eq_none_of {p : Text → Prop} (hbuiltins : ∀ entry ∈ builtins, ¬p entry.name.toList)
    (hnames : ∀ name, IsName name → name ∉ reserved → ¬p name) (ht : p t) :
    table.lookup (String.ofList t) = none := by
  rw [Option.eq_none_iff_forall_not_mem]
  intro entry hentry
  obtain ⟨hmem, rfl⟩ := mem_of_lookup hentry
  rcases h entry hmem with hbuiltin | ⟨hname, hreserved⟩
  · exact hbuiltins entry hbuiltin ht
  · exact hnames _ hname hreserved ht

/-- A number is no known name. -/
theorem lookup_eq_none_of_isNumeral (ht : IsNumeral t) : table.lookup (String.ofList t) = none := by
  refine h.lookup_eq_none_of (p := fun t => ∃ c ∈ t, c ∈ digits) ?_ ?_ ht.exists_digit
  · have hnames : ∀ entry ∈ builtins, entry.name.toList.all (· ∉ digits) = true := by decide
    rintro entry hentry ⟨c, hc, hdigit⟩
    exact forall_of_all (hnames entry hentry) c hc hdigit
  · rintro name hname - ⟨c, hc, hdigit⟩
    have hletter := hname.2 c hc
    rw [not_isLetter_of_mem_digits c hdigit] at hletter
    cases hletter

/-- Arithmetic is no known name. -/
theorem lookup_eq_none_of_split (hmod : ['m', 'o', 'd'] ∈ reserved) {cut : Arithmetic.Cut}
    (ht : Arithmetic.split? t = some cut) : table.lookup (String.ofList t) = none := by
  refine h.lookup_eq_none_of (p := fun t => (Arithmetic.split? t).isSome = true) ?_ ?_ (by rw [ht]; rfl)
  · decide +kernel
  · intro name hname hreserved hsome
    have hne : name ≠ ['m', 'o', 'd'] := by
      rintro rfl
      exact hreserved hmod
    rw [Arithmetic.split?_word hname.isValid (Arithmetic.ne_sign_of_isName hname hne)] at hsome
    cases hsome

end IsSimple

end NameTable

end BlockScript
