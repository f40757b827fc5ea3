import BlockScript.Proofs.Line.Linewise
import BlockScript.Proofs.Outline.Shift
import Mathlib.Data.List.DropRight

/-!
# Sources line by line, and one behind another

The walk over the characters of a source gives what its lines give one by one, with the mark of the end behind its last
character.  Lines do not influence each other, so a source behind another one has the lines that it has alone, further
down (`Line.scan_eq_linewise`).
-/

namespace BlockScript.Line

/-- The line that the characters between two newlines show, if they are more than blanks and no comment. -/
def shown? (number : Nat) (physical : Text) : Option Line :=
  let raw := (physical.dropWhile (· == '\uFEFF')).filter (· != '\r')
  let t := Text.trim raw
  if t = [] ∨ ['#'] <+: t ∨ ['/', '/'] <+: t then none
  else some (ofText t number (1 + (raw.takeWhile isBlank).length))

/-- The lines of a source one by one, and the mark of the end behind the last character. -/
def linewise (source : Text) : List Line :=
  ((source.splitOn '\n').zipIdx 1).filterMap (fun physical => shown? physical.2 physical.1) ++
    [⟨.finish, [], 1 + source.count '\n', 1 + (source.rtakeWhile (· != '\n')).length, none⟩]

/-! ### Lines -/

private theorem ofRaw?_content (number : Nat) (physical : Text) :
    ofRaw? number (content physical) = shown? number physical := by
  unfold ofRaw? shown? content byteOrderMark isComment
  simp only [Bool.or_eq_true, List.isPrefixOf_iff_prefix, decide_eq_true_eq]

private theorem ofPhysicals_eq_filterMap (number : Nat) (physicals : List Text) :
    ofPhysicals number physicals = (physicals.zipIdx number).filterMap fun physical => shown? physical.2 physical.1 := by
  induction physicals generalizing number with
  | nil => rfl
  | cons physical rest ih =>
    rw [ofPhysicals, ih, ofRaw?_content, List.zipIdx_cons, List.filterMap_cons]
    cases shown? number physical <;> rfl

private theorem ofRaw?_add (number k : Nat) (raw : Text) :
    ofRaw? (number + k) raw = (ofRaw? number raw).map (Line.shift k) := by
  unfold ofRaw?
  split_ifs <;> rfl

private theorem ofPhysicals_add (number k : Nat) (physicals : List Text) :
    ofPhysicals (number + k) physicals = (ofPhysicals number physicals).map (Line.shift k) := by
  induction physicals generalizing number with
  | nil => rfl
  | cons physical rest ih =>
    rw [ofPhysicals, ofPhysicals, List.map_append, ofRaw?_add, Nat.add_right_comm, ih]
    cases ofRaw? number (content physical) <;> rfl

/-- The lines of a source stand behind those of another one as they stand alone, but further down. -/
theorem significant_append (a b : Text) : significant (a ++ '\n' :: b) =
    significant a ++ (significant b).map (Line.shift (a.splitOn '\n').length) := by
  rw [significant_eq_ofPhysicals, significant_eq_ofPhysicals, significant_eq_ofPhysicals,
    List.splitOn_append_cons_self, ofPhysicals_append, ofPhysicals_add]

/-! ### The end -/

private theorem endColumn_concat (physicals : List Text) (physical : Text) :
    endColumn 1 (physicals ++ [physical]) = 1 + physical.length := by
  induction physicals with
  | nil => rfl
  | cons _ rest ih => cases rest <;> exact ih

/-- A source is one line, or ends in one that stands behind a newline. -/
private theorem eq_last_or_exists (source : Text) :
    source = source.rtakeWhile (· != '\n') ∨ ∃ lines, source = lines ++ '\n' :: source.rtakeWhile (· != '\n') := by
  have hparts : source.rdropWhile (· != '\n') ++ source.rtakeWhile (· != '\n') = source :=
    List.rdropWhile_append_rtakeWhile
  -- what stands in front of the last line is nothing, or ends in the newline that the last line begins behind
  rcases List.eq_nil_or_concat (source.rdropWhile (· != '\n')) with hfirst | ⟨lines, c, hfirst⟩
  · rw [hfirst] at hparts
    exact .inl hparts.symm
  · have hlast := List.rdropWhile_last_not (· != '\n') source (by rw [hfirst]; simp)
    obtain rfl : c = '\n' := by simpa [hfirst] using hlast
    rw [hfirst, List.concat_append] at hparts
    exact .inr ⟨lines, hparts.symm⟩

private theorem endColumn_splitOn (source : Text) :
    endColumn 1 (source.splitOn '\n') = 1 + (source.rtakeWhile (· != '\n')).length := by
  have hlast : '\n' ∉ source.rtakeWhile (· != '\n') := fun h => by simpa using List.mem_rtakeWhile_imp h
  have hsplit : ∃ physicals, source.splitOn '\n' = physicals ++ [source.rtakeWhile (· != '\n')] := by
    rcases eq_last_or_exists source with h | ⟨lines, h⟩
    · refine ⟨[], ?_⟩
      conv_lhs => rw [h, List.splitOn_eq_singleton hlast]
      rfl
    · refine ⟨lines.splitOn '\n', ?_⟩
      conv_lhs => rw [h, List.splitOn_append_cons_self, List.splitOn_eq_singleton hlast]
  obtain ⟨physicals, hsplit⟩ := hsplit
  rw [hsplit, endColumn_concat]

private theorem length_splitOn (source : Text) : (source.splitOn '\n').length = 1 + source.count '\n' := by
  induction source with
  | nil => rfl
  | cons c source ih =>
    rw [List.splitOn_cons_eq_if_modifyHead, List.count_cons]
    split_ifs
    · rw [List.length_cons, ih, Nat.add_assoc]
    · rw [List.length_modifyHead, ih, Nat.add_zero]

private theorem rtakeWhile_append_newline (a b : Text) :
    (a ++ '\n' :: b).rtakeWhile (· != '\n') = b.rtakeWhile (· != '\n') := by
  have hstop : (b.reverse ++ '\n' :: a.reverse).takeWhile (· != '\n') = b.reverse.takeWhile (· != '\n') := by
    rw [List.takeWhile_append]
    split_ifs with h
    · rw [(List.takeWhile_prefix _).eq_of_length h]
      simp
    · rfl
  rw [List.rtakeWhile, List.reverse_append, List.reverse_cons, List.append_assoc]
  exact congrArg List.reverse hstop

private theorem scan_eq_significant (source : Text) : scan source =
    significant source ++ [finish (1 + source.count '\n') (1 + (source.rtakeWhile (· != '\n')).length)] := by
  rw [significant_eq_ofPhysicals, scan_eq_ofPhysicals, endColumn_splitOn, length_splitOn]

private theorem finish_add (number column k : Nat) :
    finish (k + number) column = Line.shift k (finish number column) := by
  simp [finish, shift, Int.add_comm]

/-! ### Sources -/

/-- The walk over a source finds its lines one by one.  Behind another source they are the same, further down. -/
theorem scan_eq_linewise :
    (∀ source, scan source = linewise source) ∧
    ∀ a b, scan (a ++ '\n' :: b) = (scan a).dropLast ++ (scan b).map (Line.shift (1 + a.count '\n')) := by
  constructor
  · intro source
    rw [scan_eq_significant, significant_eq_ofPhysicals, ofPhysicals_eq_filterMap]
    rfl
  · intro a b
    have hcount : 1 + (a ++ '\n' :: b).count '\n' = (1 + a.count '\n') + (1 + b.count '\n') := by
      rw [List.count_append, List.count_cons_self]
      omega
    rw [scan_eq_significant, significant_append, hcount, rtakeWhile_append_newline, finish_add, length_splitOn,
      scan_eq_significant b, List.map_append, List.append_assoc]
    rfl

end BlockScript.Line
