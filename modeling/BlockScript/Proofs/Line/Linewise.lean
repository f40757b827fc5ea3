import BlockScript.Line.Scan
import BlockScript.Proofs.Text.Parts
import Mathlib.Data.Option.Basic
import Mathlib.Tactic.SplitIfs

/-!
# A source line by line

The lines of a source can be found one by one: each comes from the characters between two newlines, without the byte
order marks in front and without carriage returns (`Line.scan_eq_ofPhysicals`).
-/

namespace BlockScript.Line

/-- The characters that count between two newlines. -/
def content (physical : Text) : Text :=
  (physical.dropWhile (· == byteOrderMark)).filter (· != '\r')

/-- The lines that the texts between newlines make, the first of them with the given number. -/
def ofPhysicals (number : Nat) : List Text → List Line
  | [] => []
  | physical :: rest => (ofRaw? number (content physical)).toList ++ ofPhysicals (number + 1) rest

/-- The column behind the last of some texts between newlines, the first of which begins at the given column. -/
def endColumn (column : Nat) : List Text → Nat
  | [] => column
  | [physical] => column + physical.length
  | _ :: physical :: rest => endColumn 1 (physical :: rest)

/-- The significant lines of a source. -/
def significant (source : Text) : List Line :=
  (scan source).dropLast

/-! ### Scanning -/

/-- The characters of a line of which `raw`, last first, has been scanned already. -/
private def continued (raw : Option Text) (physical : Text) : Text :=
  match raw with
  | none => content physical
  | some raw => raw.reverse ++ physical.filter (· != '\r')

private theorem ofRaw_continued_nil (number : Nat) (raw : Option Text) :
    ofRaw? number (continued raw []) = raw.bind (ofRaw? number ·.reverse) := by
  cases raw with
  | none => rfl
  | some raw => simp [continued]

private theorem continued_cons (raw : Option Text) (c : Char) (physical : Text) :
    continued raw (c :: physical) =
      if raw.isNone && c = byteOrderMark then continued none physical
      else if c = '\r' then continued (some (raw.getD [])) physical
      else continued (some (c :: raw.getD [])) physical := by
  cases raw with
  | none =>
    by_cases hmark : c = byteOrderMark
    · simp [continued, content, hmark]
    · have hdrop : (c :: physical).dropWhile (· == byteOrderMark) = c :: physical := by simp [hmark]
      rw [if_neg (by simp [hmark]), continued, content, hdrop]
      by_cases hreturn : c = '\r' <;> simp [continued, hreturn]
  | some raw => by_cases hreturn : c = '\r' <;> simp [continued, hreturn]

private theorem scanFrom_eq (t : Text) : ∀ (number column : Nat) (raw : Option Text) (first : Text) (rest : List Text),
    t.splitOn '\n' = first :: rest → scanFrom number column raw t =
      (ofRaw? number (continued raw first)).toList ++ ofPhysicals (number + 1) rest ++
        [finish (number + rest.length) (endColumn column (first :: rest))] := by
  -- on the text, for any part of the current line that has been scanned before
  induction t with
  | nil =>
    intro number column raw first rest h
    obtain ⟨rfl, rfl⟩ : [] = first ∧ [] = rest := by simpa using h
    rw [scanFrom, ofRaw_continued_nil]
    simp [ofPhysicals, endColumn]
  | cons c t ih =>
    intro number column raw first rest h
    obtain ⟨first', rest', hsplit⟩ := List.exists_cons_of_ne_nil (List.splitOn_ne_nil '\n' t)
    rw [List.splitOn_cons_eq_if_modifyHead, hsplit] at h
    rw [scanFrom]
    by_cases hnewline : c = '\n'
    · rw [if_pos (by simpa using hnewline)] at h
      obtain ⟨rfl, rfl⟩ := List.cons.inj h
      rw [if_pos hnewline, ih _ _ _ _ _ hsplit, ofRaw_continued_nil, ofPhysicals, endColumn, List.length_cons]
      simp only [continued, List.append_assoc, Nat.add_assoc, Nat.add_comm 1]
    · rw [if_neg (by simpa using hnewline)] at h
      obtain ⟨rfl, rfl⟩ := List.cons.inj h
      have hcolumn : endColumn (column + 1) (first' :: rest') = endColumn column ((c :: first') :: rest') := by
        cases rest' with
        | nil =>
          simp only [endColumn, List.length_cons]
          omega
        | cons => rfl
      rw [if_neg hnewline, continued_cons, ← hcolumn]
      split_ifs
      all_goals rw [ih _ _ _ _ _ hsplit]

/-- The lines of a source come one by one from the texts between its newlines. -/
theorem scan_eq_ofPhysicals (source : Text) :
    scan source = ofPhysicals 1 (source.splitOn '\n') ++
      [finish (source.splitOn '\n').length (endColumn 1 (source.splitOn '\n'))] := by
  obtain ⟨first, rest, hsplit⟩ := List.exists_cons_of_ne_nil (List.splitOn_ne_nil '\n' source)
  rw [scan, scanFrom_eq source 1 1 none first rest hsplit, hsplit, ofPhysicals, List.length_cons,
    Nat.add_comm rest.length]
  rfl

theorem significant_eq_ofPhysicals (source : Text) : significant source = ofPhysicals 1 (source.splitOn '\n') := by
  rw [significant, scan_eq_ofPhysicals, List.dropLast_concat]

/-- A source shows its significant lines and then the mark of its end. -/
theorem exists_scan_eq (source : Text) : ∃ fin, fin.kind = .finish ∧ scan source = significant source ++ [fin] := by
  refine ⟨finish (source.splitOn '\n').length (endColumn 1 (source.splitOn '\n')), rfl, ?_⟩
  rw [significant_eq_ofPhysicals]
  exact scan_eq_ofPhysicals source

/-! ### Kinds -/

private theorem kindOf_ne_finish (t : Text) : (kindOf t).1 ≠ .finish ∧ ∀ name, (kindOf t).1 ≠ .other name := by
  unfold kindOf
  split_ifs
  · simp
  · simp
  · simp
  · simp
  · split
    · simp
    · split
      · simp
      · split <;> simp

theorem ofPhysicals_append (number : Nat) (physicals physicals' : List Text) :
    ofPhysicals number (physicals ++ physicals') =
      ofPhysicals number physicals ++ ofPhysicals (number + physicals.length) physicals' := by
  induction physicals generalizing number with
  | nil => rfl
  | cons physical rest ih =>
    rw [List.cons_append, ofPhysicals, ih, ofPhysicals, List.append_assoc, List.length_cons, Nat.add_assoc,
      Nat.add_comm 1]

theorem mem_ofPhysicals {number : Nat} {physicals : List Text} {line : Line} :
    line ∈ ofPhysicals number physicals → ∃ physical ∈ physicals, ∃ n, ofRaw? n (content physical) = some line := by
  induction physicals generalizing number with
  | nil => intro h; cases h
  | cons physical rest ih =>
    intro h
    rcases List.mem_append.1 h with h | h
    · exact ⟨physical, by simp, number, by simpa using h⟩
    · obtain ⟨physical', hmem, hline⟩ := ih h
      exact ⟨physical', List.mem_cons_of_mem _ hmem, hline⟩

theorem eq_ofText_of_ofRaw {number : Nat} {raw : Text} {line : Line} (h : ofRaw? number raw = some line) :
    line = ofText (Text.trim raw) number (1 + (raw.takeWhile isBlank).length) := by
  unfold ofRaw? at h
  split at h
  · cases h
  · exact (Option.some.inj h).symm

/-- Only the end of a source is marked as one. -/
theorem kind_ne_finish_of_mem {source : Text} {line : Line} (h : line ∈ significant source) :
    line.kind ≠ .finish ∧ ∀ name, line.kind ≠ .other name := by
  rw [significant_eq_ofPhysicals] at h
  obtain ⟨physical, -, n, hline⟩ := mem_ofPhysicals h
  rw [eq_ofText_of_ofRaw hline]
  exact kindOf_ne_finish _

/-- A line that means something is not empty. -/
theorem text_ne_nil_of_mem {source : Text} {line : Line} (h : line ∈ significant source) : line.text ≠ [] := by
  rw [significant_eq_ofPhysicals] at h
  obtain ⟨physical, -, n, hline⟩ := mem_ofPhysicals h
  have htext := congrArg Line.text (eq_ofText_of_ofRaw hline)
  rw [htext]
  intro hempty
  unfold ofRaw? at hline
  rw [if_pos (by rw [show Text.trim (content physical) = [] from hempty]; rfl)] at hline
  cases hline

/-! ### Arguments -/

private theorem eq_of_guard {p : Prop} [Decidable p] {t t' : Text} (h : (do guard p; some t) = some t') : t' = t := by
  obtain ⟨-, -, h⟩ := Option.bind_eq_some_iff.1 h
  exact (Option.some.inj h).symm

private theorem eq_of_guards {c p q : Prop} [Decidable c] [Decidable p] [Decidable q] {t t' : Text}
    (h : (if c then do guard p; some t else do guard q; some t) = some t') : t' = t := by
  by_cases hc : c
  · rw [if_pos hc] at h
    exact eq_of_guard h
  · rw [if_neg hc] at h
    exact eq_of_guard h

theorem exists_of_untilArgument {t argument : Text} (h : untilArgument? t = some argument) :
    ∃ rest condition, Text.after? "repeat".toList t = some rest ∧
      Text.after? "until".toList (Text.trimLeft rest) = some condition ∧ argument = Text.trim condition := by
  obtain ⟨rest, hrest, h⟩ := Option.bind_eq_some_iff.1 h
  obtain ⟨-, -, h⟩ := Option.bind_eq_some_iff.1 h
  obtain ⟨condition, hcondition, h⟩ := Option.bind_eq_some_iff.1 h
  exact ⟨rest, condition, hrest, hcondition, eq_of_guard h⟩

theorem exists_of_timesArgument {t argument : Text} (h : timesArgument? t = some argument) :
    ∃ rest, Text.after? "repeat".toList t = some rest ∧ argument = Text.trim rest := by
  obtain ⟨rest, hrest, h⟩ := Option.bind_eq_some_iff.1 h
  obtain ⟨first, -, h⟩ := Option.bind_eq_some_iff.1 h
  refine ⟨rest, hrest, ?_⟩
  -- The conditions only choose what is guarded: the count is the same text in all cases.
  by_cases hblank : isBlank first = true
  · rw [if_pos hblank] at h
    exact eq_of_guards h
  · rw [if_neg hblank] at h
    exact eq_of_guard h

theorem exists_of_ifArgument {t argument : Text} (h : ifArgument? t = some argument) :
    ∃ middle : Text, Text.after? "if".toList t = some (middle ++ "then".toList) ∧ argument = Text.trim middle := by
  obtain ⟨rest, hrest, h⟩ := Option.bind_eq_some_iff.1 h
  obtain ⟨_, hthen, h⟩ := Option.bind_eq_some_iff.1 h
  have hmiddle : argument = Text.trim (rest.take (rest.length - "then".length)) := eq_of_guards h
  obtain ⟨middle, rfl⟩ : ∃ middle, middle ++ "then".toList = rest := by
    by_cases hsuffix : "then".toList.isSuffixOf rest = true
    · exact List.isSuffixOf_iff_suffix.1 hsuffix
    · rw [guard, if_neg hsuffix] at hthen
      cases hthen
  have htake : (middle ++ "then".toList).take ((middle ++ "then".toList).length - "then".length) = middle := by
    rw [List.length_append, show "then".toList.length = "then".length from rfl, Nat.add_sub_cancel, List.take_left]
  exact ⟨middle, hrest, by rw [hmiddle, htake]⟩

/-- The argument of a line is read by the rule of one of the kinds that take one. -/
theorem cases_of_argument {t argument : Text} (h : (kindOf t).2 = some argument) :
    untilArgument? t = some argument ∨ timesArgument? t = some argument ∨ ifArgument? t = some argument := by
  unfold kindOf at h
  split_ifs at h
  split at h
  · rename_i condition hcondition
    split at h
    · cases h
    · exact .inl (hcondition.trans h)
  · split at h
    · rename_i count hcount
      exact .inr (.inl (hcount.trans h))
    · split at h
      · rename_i condition hcondition
        exact .inr (.inr (hcondition.trans h))
      · cases h

/-- The argument of a line is a part of it. -/
theorem infix_argument {t argument : Text} (h : (kindOf t).2 = some argument) : argument <:+: t := by
  rcases cases_of_argument h with h | h | h
  · obtain ⟨rest, condition, hrest, hcondition, rfl⟩ := exists_of_untilArgument h
    have hpart : condition <:+: rest := (Text.infix_of_after hcondition).trans rest.infix_trimLeft
    exact condition.infix_trim.trans (hpart.trans (Text.infix_of_after hrest))
  · obtain ⟨rest, hrest, rfl⟩ := exists_of_timesArgument h
    exact rest.infix_trim.trans (Text.infix_of_after hrest)
  · obtain ⟨middle, hrest, rfl⟩ := exists_of_ifArgument h
    have hpart : middle <:+: middle ++ "then".toList := (List.prefix_append _ _).isInfix
    exact middle.infix_trim.trans (hpart.trans (Text.infix_of_after hrest))

end BlockScript.Line
