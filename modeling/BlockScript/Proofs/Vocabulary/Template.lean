import BlockScript.Bracket
import BlockScript.Proofs.Vocabulary.Form

/-!
# Templates

A template is a text with holes: some of its characters are given, and of the others no more is known than that they
stay on one line and are no brackets, or nothing at all.  It stands for all texts that it fits.  A form is run on a
template by following all ways to read it at once, so a single run speaks about all these texts.

* `Form.reaches_of_match?`: a form that does not reach the end of a template reads no text that the template fits.
-/

namespace BlockScript

/-- Whether a character stays on the line and is no bracket. -/
def isInner (c : Char) : Bool :=
  c != '\n' && (Bracket.ofOpener? c).isNone && (Bracket.ofCloser? c).isNone

/-- A part of a template. -/
inductive Symbol where
  | given (c : Char)
  /-- A character that is no blank. -/
  | solid
  /-- Any number of characters that stay on the line and are no brackets. -/
  | hole
  /-- Any text. -/
  | anything
  deriving DecidableEq, Repr

/-- A text with holes. -/
abbrev Template := List Symbol

namespace Symbol

/-- The texts for which a part of a template stands. -/
def Shows : Symbol → Text → Prop
  | given c, u => u = [c]
  | solid, u => ∃ c, u = [c] ∧ isInner c = true ∧ isBlank c = false
  | hole, u => ∀ c ∈ u, isInner c = true
  | anything, _ => True

/-- Whether a part of a template stands for texts of any length. -/
def isMany : Symbol → Bool
  | hole => true
  | anything => true
  | _ => false

variable {a : Symbol} {u v : Text}

theorem exists_singleton (ha : a.isMany = false) (h : a.Shows u) : ∃ c, u = [c] := by
  cases a with
  | given c => exact ⟨c, h⟩
  | solid =>
    obtain ⟨c, hc, -⟩ := h
    exact ⟨c, hc⟩
  | hole => cases ha
  | anything => cases ha

theorem shows_of_append (ha : a.isMany = true) (h : a.Shows (u ++ v)) : a.Shows v := by
  cases a with
  | given c => cases ha
  | solid => cases ha
  | hole => exact fun c hc => h c (List.mem_append_right _ hc)
  | anything => trivial

end Symbol

/-- The characters that a piece of a form asks for. -/
inductive CharClass where
  | among (set : List Char)
  | blank
  | inLine
  deriving DecidableEq, Repr

namespace CharClass

/-- Whether a character belongs to the class. -/
def holds : CharClass → Char → Bool
  | among set, c => set.contains c
  | blank, c => isBlank c
  | inLine, c => c != '\n'

/-- Whether the class has a character for which a part of a template may stand. -/
def meets : CharClass → Symbol → Bool
  | k, .given c => k.holds c
  | among set, .solid => set.any fun c => isInner c && !isBlank c
  | among set, .hole => set.any isInner
  | blank, .solid => false
  | blank, .hole => true
  | inLine, _ => true
  | _, .anything => true

variable {k : CharClass} {c : Char}

/-- A part of a template that stands for a text with a character of the class meets the class. -/
theorem meets_of_shows {a : Symbol} {u : Text} (h : a.Shows u) (hmem : c ∈ u) (hc : k.holds c = true) :
    k.meets a = true := by
  cases a with
  | given d =>
    obtain rfl : u = [d] := h
    obtain rfl := List.mem_singleton.1 hmem
    cases k <;> exact hc
  | solid =>
    obtain ⟨d, rfl, hinner, hblank⟩ := h
    obtain rfl := List.mem_singleton.1 hmem
    cases k with
    | among set => exact List.any_eq_true.2 ⟨c, List.contains_iff_mem.1 hc, by simp [hinner, hblank]⟩
    | blank => rw [holds, hblank] at hc; cases hc
    | inLine => rfl
  | hole =>
    cases k with
    | among set => exact List.any_eq_true.2 ⟨c, List.contains_iff_mem.1 hc, h c hmem⟩
    | blank => rfl
    | inLine => rfl
  | anything => cases k <;> rfl

end CharClass

namespace Template

/-- The texts for which a template stands. -/
def Fits : Template → Text → Prop
  | [], t => t = []
  | s :: template, t => ∃ u rest, t = u ++ rest ∧ s.Shows u ∧ Fits template rest

theorem fits_given (t : Text) : Fits (t.map .given) t := by
  induction t with
  | nil => rfl
  | cons c t ih => exact ⟨[c], t, rfl, rfl, ih⟩

theorem Fits.append {s s' : Template} {t t' : Text} (h : Fits s t) (h' : Fits s' t') : Fits (s ++ s') (t ++ t') := by
  induction s generalizing t with
  | nil =>
    obtain rfl : t = [] := h
    exact h'
  | cons a s ih =>
    obtain ⟨u, rest, rfl, hu, hrest⟩ := h
    exact ⟨u, rest ++ t', List.append_assoc _ _ _, hu, ih hrest⟩

/-- What may be left of a template behind one character of a class. -/
def step (k : CharClass) : Template → List Template
  | [] => []
  | a :: s =>
    if a.isMany then (if k.meets a then [a :: s] else []) ++ step k s else if k.meets a then [s] else []

/-- What may be left of a template behind any number of characters of a class. -/
def skip (k : CharClass) : Template → List Template
  | [] => [[]]
  | a :: s => (a :: s) :: (if a.isMany || k.meets a then skip k s else [])

/-- What may be left of a template behind a text. -/
def spell : Text → Template → List Template
  | [], s => [s]
  | c :: t, s => (step (.among [c]) s).flatMap (spell t)

variable {k : CharClass} {c : Char} {t u : Text}

theorem exists_of_step {s : Template} (h : Fits s (c :: t)) (hc : k.holds c = true) :
    ∃ s' ∈ step k s, Fits s' t := by
  induction s with
  | nil => cases h
  | cons a s ih =>
    obtain ⟨u, rest, htext, hu, hrest⟩ := h
    cases hmany : a.isMany with
    | false =>
      obtain ⟨d, rfl⟩ := Symbol.exists_singleton hmany hu
      obtain ⟨rfl, rfl⟩ := List.cons.inj htext
      have hmeets := CharClass.meets_of_shows hu List.mem_cons_self hc
      exact ⟨s, by simp [step, hmany, hmeets], hrest⟩
    | true =>
      cases u with
      | nil =>
        subst htext
        obtain ⟨s', hs', hfits⟩ := ih hrest
        exact ⟨s', by simp [step, hmany, hs'], hfits⟩
      | cons d u =>
        obtain ⟨rfl, rfl⟩ := List.cons.inj htext
        have hmeets := CharClass.meets_of_shows hu List.mem_cons_self hc
        exact ⟨a :: s, by simp [step, hmany, hmeets], u, rest, rfl, Symbol.shows_of_append (u := [c]) hmany hu, hrest⟩

theorem exists_of_skip {s : Template} (h : Fits s (u ++ t)) (hu : ∀ c ∈ u, k.holds c = true) :
    ∃ s' ∈ skip k s, Fits s' t := by
  induction s generalizing u with
  | nil => exact ⟨[], List.mem_singleton.2 rfl, (List.append_eq_nil_iff.1 h).2⟩
  | cons a s ih =>
    obtain ⟨w, rest, htext, hw, hrest⟩ := h
    cases hmany : a.isMany with
    | false =>
      obtain ⟨d, rfl⟩ := Symbol.exists_singleton hmany hw
      cases u with
      | nil =>
        subst htext
        exact ⟨a :: s, List.mem_cons_self, [d], rest, rfl, hw, hrest⟩
      | cons c u =>
        obtain ⟨rfl, rfl⟩ := List.cons.inj htext
        obtain ⟨hc, hu⟩ := List.forall_mem_cons.1 hu
        obtain ⟨s', hs', hfits⟩ := ih hrest hu
        have hmeets := CharClass.meets_of_shows hw List.mem_cons_self hc
        exact ⟨s', by simp [skip, hmeets, hs'], hfits⟩
    | true =>
      rcases List.append_eq_append_iff.1 htext with ⟨v, rfl, rfl⟩ | ⟨v, rfl, rfl⟩
      · exact ⟨a :: s, List.mem_cons_self, v, rest, rfl, Symbol.shows_of_append hmany hw, hrest⟩
      · obtain ⟨s', hs', hfits⟩ := ih hrest fun c hc => hu c (List.mem_append_right _ hc)
        exact ⟨s', by simp [skip, hmany, hs'], hfits⟩

theorem exists_of_spell {s : Template} (h : Fits s (u ++ t)) : ∃ s' ∈ spell u s, Fits s' t := by
  induction u generalizing s with
  | nil => exact ⟨s, List.mem_singleton.2 rfl, h⟩
  | cons c u ih =>
    obtain ⟨s', hs', hfits⟩ := exists_of_step (k := .among [c]) h (by simp [CharClass.holds])
    obtain ⟨s'', hs'', hrest⟩ := ih hfits
    exact ⟨s'', List.mem_flatMap.2 ⟨s', hs', hs''⟩, hrest⟩

/-- Some characters of a class, and at least one. -/
theorem exists_of_step_skip {s : Template} (h : Fits s (u ++ t)) (hne : u ≠ []) (hu : ∀ c ∈ u, k.holds c = true) :
    ∃ s' ∈ (step k s).flatMap (skip k), Fits s' t := by
  obtain ⟨c, u, rfl⟩ := List.exists_cons_of_ne_nil hne
  obtain ⟨hc, hu⟩ := List.forall_mem_cons.1 hu
  obtain ⟨s', hs', hfits⟩ := exists_of_step h hc
  obtain ⟨s'', hs'', hrest⟩ := exists_of_skip hfits hu
  exact ⟨s'', List.mem_flatMap.2 ⟨s', hs', hs''⟩, hrest⟩

end Template

/-- What may be left of a template behind a piece of a form. -/
def Piece.after : Piece → Template → List Template
  | oneOf set, s => Template.step (.among set) s
  | optional set, s => s :: Template.step (.among set) s
  | gap required, s =>
    if required then (Template.step .blank s).flatMap (Template.skip .blank) else Template.skip .blank s
  | marker, s => s :: (Template.skip .blank s).flatMap (Template.step (.among ['v']))
  | ahead _, s => [s]
  | shortest _, s => (Template.step .inLine s).flatMap (Template.skip .inLine)
  | longest _, s => (Template.step .inLine s).flatMap (Template.skip .inLine)
  | word _ options, s => options.flatMap (Template.spell · s)

/-- Behind a text that a piece allows there is a rest of the template. -/
theorem Piece.exists_of_after {p : Piece} {s : Template} {t u : Text} (h : s.Fits (u ++ t)) (hu : p.Shows u) :
    ∃ s' ∈ p.after s, s'.Fits t := by
  have hone {set : List Char} (hc : ∃ c ∈ set, u = [c]) : ∃ s' ∈ Template.step (.among set) s, s'.Fits t := by
    obtain ⟨c, hc, rfl⟩ := hc
    exact Template.exists_of_step h (List.contains_iff_mem.2 hc)
  have hline (hu : u ≠ [] ∧ '\n' ∉ u) :
      ∃ s' ∈ (Template.step .inLine s).flatMap (Template.skip .inLine), s'.Fits t := by
    refine Template.exists_of_step_skip h hu.1 fun c hc => ?_
    have : c ≠ '\n' := fun heq => hu.2 (heq ▸ hc)
    simpa [CharClass.holds] using this
  cases p with
  | oneOf set => exact hone hu
  | optional set =>
    rcases hu with rfl | hu
    · exact ⟨s, List.mem_cons_self, h⟩
    · obtain ⟨s', hs', hfits⟩ := hone hu
      exact ⟨s', List.mem_cons_of_mem _ hs', hfits⟩
  | gap required =>
    cases required with
    | true => exact Template.exists_of_step_skip h (hu.2 rfl) hu.1
    | false => exact Template.exists_of_skip h hu.1
  | marker =>
    rcases hu with rfl | ⟨blanks, -, hblanks, rfl⟩
    · exact ⟨s, List.mem_cons_self, h⟩
    · rw [List.append_assoc] at h
      obtain ⟨s', hs', hfits⟩ := Template.exists_of_skip (k := .blank) h hblanks
      obtain ⟨s'', hs'', hrest⟩ := Template.exists_of_step (k := .among ['v']) hfits (by decide)
      exact ⟨s'', List.mem_cons_of_mem _ (List.mem_flatMap.2 ⟨s', hs', hs''⟩), hrest⟩
  | ahead set =>
    obtain rfl : u = [] := hu
    exact ⟨s, List.mem_singleton.2 rfl, h⟩
  | shortest slot => exact hline hu
  | longest slot => exact hline hu
  | word slot options =>
    obtain ⟨s', hs', hfits⟩ := Template.exists_of_spell h
    exact ⟨s', List.mem_flatMap.2 ⟨u, hu, hs'⟩, hfits⟩

namespace Form

/-- Whether some way to read a template by a form ends where the template may end. -/
def reaches : Form → Template → Bool
  | [], s => s.all Symbol.isMany
  | p :: form, s => (p.after s).any (reaches form)

/-- A form that reads a text reaches the end of every template that fits the text. -/
theorem reaches_of_match? {form : Form} {s : Template} {t : Text} {values : Bindings}
    (h : form.match? t = some values) (hs : s.Fits t) : form.reaches s = true := by
  induction form generalizing s t values with
  | nil =>
    obtain rfl : t = [] := by
      unfold match? at h
      split at h
      · assumption
      · cases h
    induction s with
    | nil => rfl
    | cons a s ih =>
      obtain ⟨u, rest, htext, hu, hrest⟩ := hs
      obtain ⟨rfl, rfl⟩ := List.append_eq_nil_iff.1 htext.symm
      cases hmany : a.isMany with
      | false =>
        obtain ⟨c, hc⟩ := Symbol.exists_singleton hmany hu
        cases hc
      | true => exact List.all_eq_true.2 (List.forall_mem_cons.2 ⟨hmany, List.all_eq_true.1 (ih hrest)⟩)
  | cons p form ih =>
    obtain ⟨u, rest, found, rfl, hu, hnext, -⟩ := Piece.exists_of_run h
    obtain ⟨s', hs', hfits⟩ := Piece.exists_of_after hs hu
    exact List.any_eq_true.2 ⟨s', hs', ih hnext hfits⟩

end Form

end BlockScript
