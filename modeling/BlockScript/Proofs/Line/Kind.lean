import BlockScript.Line.Kind
import Mathlib.Data.Option.Basic

/-!
# The kind of a line from its beginning

The rules for the kinds of lines look at the words with which a line begins, and some of them at its end.  So a line
that begins otherwise is a statement.
-/

namespace BlockScript.Line

/-- The words that begin lines of other kinds than statements, those of `end` and `else` left out. -/
def openingWords : List Text :=
  ["when".toList, "forever".toList, "repeat".toList, "if".toList]

private theorem after?_eq_none {word t : Text} (h : ¬word <+: t) : Text.after? word t = none := by
  rw [Text.after?, if_neg (by simpa using h)]

/-- A line is a statement if no word of another kind of line begins it. -/
theorem kindOf_eq_statement {t : Text} (hwords : ∀ word ∈ openingWords, ¬word <+: t)
    (hfirst : ∀ c ∈ t.head?, c ∉ ['e', 'E']) : kindOf t = (.statement, none) := by
  obtain ⟨hwhen, hforever, hrepeat, hif⟩ : ¬"when".toList <+: t ∧ ¬"forever".toList <+: t ∧
      ¬"repeat".toList <+: t ∧ ¬"if".toList <+: t := by simpa [openingWords] using hwords
  have hend (letters : List Text) : isSpelled (['e', 'E'] :: letters) t = false := by
    cases t with
    | nil => rfl
    | cons c t =>
      have : ['e', 'E'].contains c = false := by simpa using hfirst c rfl
      rw [isSpelled, this, Bool.false_and]
  have htrigger : isTrigger t = false := by rw [isTrigger, after?_eq_none hwhen]; rfl
  have huntil : untilArgument? t = none := by rw [untilArgument?, after?_eq_none hrepeat]; rfl
  have htimes : timesArgument? t = none := by rw [timesArgument?, after?_eq_none hrepeat]; rfl
  have hcondition : ifArgument? t = none := by rw [ifArgument?, after?_eq_none hif]; rfl
  have hne : t ≠ "forever".toList := by
    rintro rfl
    exact hforever (List.prefix_refl _)
  rw [kindOf, endLetters, hend, elseLetters, hend, htrigger, huntil, htimes, hcondition]
  exact if_neg hne

/-- A line that begins with `when` and a blank is a trigger. -/
theorem kindOf_eq_trigger {rest : Text} (hline : '\n' ∉ rest) :
    kindOf ("when ".toList ++ rest) = (.trigger, none) := by
  have hstart : "when ".toList ++ rest = "when".toList ++ ' ' :: rest := by
    rw [show "when ".toList = "when".toList ++ [' '] by decide +kernel, List.append_assoc]
    rfl
  have htrigger : isTrigger ("when".toList ++ ' ' :: rest) = true := by
    have hword : endsWord (' ' :: rest) = true := by
      show (!isWordChar ' ') = true
      decide +kernel
    rw [isTrigger, Text.after?_eq_some_iff.2 rfl, Option.any_some, hword, isOneLine]
    simpa using hline
  rw [kindOf, hstart, htrigger]
  rfl

/-- A line that begins with `repeat until` and a blank keeps the condition behind it. -/
theorem kindOf_eq_repeatUntil {rest : Text} (hline : '\n' ∉ rest) (hne : Text.trim rest ≠ []) :
    kindOf ("repeat until ".toList ++ rest) = (.repeatUntil, some (Text.trim rest)) := by
  have hstart : "repeat until ".toList ++ rest = "repeat".toList ++ (' ' :: ("until".toList ++ ' ' :: rest)) := by
    rw [show "repeat until ".toList = "repeat".toList ++ ' ' :: ("until".toList ++ [' ']) by decide +kernel]
    simp
  have hleft : Text.trimLeft (' ' :: ("until".toList ++ ' ' :: rest)) = "until".toList ++ ' ' :: rest := rfl
  have hword : endsWord (' ' :: rest) = true := by
    show (!isWordChar ' ') = true
    decide +kernel
  have hrest : isOneLine (Text.trimLeft (' ' :: rest)) = true := by
    have hsub : '\n' ∉ Text.trimLeft rest := fun hmem => hline ((List.dropWhile_sublist _).subset hmem)
    show isOneLine (Text.trimLeft rest) = true
    simpa [isOneLine] using hsub
  have huntil : untilArgument? ("repeat until ".toList ++ rest) = some (Text.trim rest) := by
    have hblank : isBlank ' ' = true := by decide
    have hafter : Text.after? "until".toList ("until".toList ++ ' ' :: rest) = some (' ' :: rest) :=
      Text.after?_eq_some_iff.2 rfl
    rw [untilArgument?, hstart, Text.after?_eq_some_iff.2 rfl]
    simp only [Option.bind_eq_bind, Option.bind_some, List.head?_cons, Option.any_some, hblank, guard, if_true, hleft,
      hafter, hword, hrest, Bool.and_self]
    rfl
  have hfirst : isTrigger ("repeat until ".toList ++ rest) = false := by
    rw [isTrigger, after?_eq_none (by rw [hstart]; rintro ⟨tail, htail⟩; cases htail)]
    rfl
  have hne' : "repeat until ".toList ++ rest ≠ "forever".toList := by
    rw [hstart]
    intro h
    cases h
  rw [kindOf, huntil, hfirst]
  simp only [if_neg hne', if_neg hne]
  rfl

end BlockScript.Line
