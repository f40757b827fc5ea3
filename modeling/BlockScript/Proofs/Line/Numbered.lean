import BlockScript.Proofs.Line.Linewise
import BlockScript.Proofs.Text.Trim
import Mathlib.Data.List.Nodup

/-!
# What a source says

A source says the trimmed texts between its newlines, blank ones and comments left out.  Its significant lines are
these texts in order, each with its number (`Line.map_significant_eq`), and no two have the same number.  The texts of
a source are those of its lines (`Line.texts_append`), and a line says the same however it is laid out
(`Line.texts_pad`).
-/

namespace BlockScript.Line

/-- The texts between the newlines of a source, without byte order marks in front, carriage returns and blanks at both
ends. -/
def trimmed (source : Text) : List Text :=
  (source.splitOn '\n').map fun physical => Text.trim (content physical)

/-- Whether a trimmed text means something: it is neither empty nor a comment. -/
def counts (t : Text) : Bool :=
  !(t = [] || isComment t)

/-- The texts that a source says. -/
def texts (source : Text) : List Text :=
  (trimmed source).filter counts

/-- The texts that a source says, each with the number of its line. -/
def numbered (source : Text) : List (Text × Nat) :=
  ((trimmed source).zipIdx 1).filter fun line => counts line.1

/-! ### Significant lines -/

theorem map_fst_numbered (source : Text) : (numbered source).map Prod.fst = texts source := by
  rw [texts, ← List.zipIdx_map_fst 1 (trimmed source), List.filter_map]
  rfl

private theorem map_ofPhysicals_eq (number : Nat) (physicals : List Text) :
    (ofPhysicals number physicals).map (fun line => (line.text, line.number)) =
      (((physicals.map fun physical => Text.trim (content physical)).zipIdx number).filter fun line =>
        counts line.1).map (Prod.map id Nat.cast) := by
  induction physicals generalizing number with
  | nil => rfl
  | cons physical rest ih =>
    rw [ofPhysicals, List.map_append, ih, List.map_cons, List.zipIdx_cons, List.filter_cons, ofRaw?, counts]
    cases h : (decide (Text.trim (content physical) = []) || isComment (Text.trim (content physical)))
    · rfl
    · rfl

/-- The significant lines of a source are the texts that it says, in order. -/
theorem map_significant_eq (source : Text) : (significant source).map (fun line => (line.text, line.number)) =
    (numbered source).map (Prod.map id Nat.cast) := by
  rw [significant_eq_ofPhysicals, map_ofPhysicals_eq]
  rfl

theorem map_text_significant (source : Text) : (significant source).map text = texts source := by
  have h := congrArg (List.map Prod.fst) (map_significant_eq source)
  rw [List.map_map, List.map_map] at h
  rw [← map_fst_numbered]
  exact h

/-- A significant line is one of the texts that the source says. -/
theorem exists_of_getElem?_significant {source : Text} {i : Nat} {line : Line}
    (h : (significant source)[i]? = some line) :
    ∃ n : Nat, (numbered source)[i]? = some (line.text, n) ∧ line.number = n := by
  have hmap := congrArg (·[i]?) (map_significant_eq source)
  simp only [List.getElem?_map, h, Option.map_some] at hmap
  obtain ⟨⟨t, n⟩, hnumbered, hline⟩ := Option.map_eq_some_iff.1 hmap.symm
  obtain ⟨rfl, hn⟩ := Prod.mk.inj hline
  exact ⟨n, hnumbered, hn.symm⟩

/-- The significant lines of a source have different numbers. -/
theorem nodup_number_significant (source : Text) : ((significant source).map number).Nodup := by
  have hnumbers : (significant source).map number = ((numbered source).map Prod.snd).map Nat.cast := by
    have h := congrArg (List.map Prod.snd) (map_significant_eq source)
    rw [List.map_map, List.map_map] at h
    rw [List.map_map]
    exact h
  have hnodup : ((numbered source).map Prod.snd).Nodup := by
    refine List.Nodup.sublist (List.filter_sublist.map Prod.snd) ?_
    rw [List.zipIdx_map_snd]
    exact List.nodup_range'
  rw [hnumbers]
  exact hnodup.map fun _ _ => Int.ofNat_inj.1

/-- A significant line is what its text makes at its place. -/
theorem eq_ofText_of_mem {source : Text} {line : Line} (h : line ∈ significant source) :
    line = ofText line.text line.number line.column := by
  rw [significant_eq_ofPhysicals] at h
  obtain ⟨physical, -, n, hline⟩ := mem_ofPhysicals h
  rw [eq_ofText_of_ofRaw hline]
  rfl

/-! ### Layout -/

/-- A source says what its lines say. -/
theorem texts_append (a b : Text) : texts (a ++ '\n' :: b) = texts a ++ texts b := by
  unfold texts trimmed
  rw [List.splitOn_append_cons_self, List.map_append, List.filter_append]

section Pad

variable {marks left t right : Text}

private theorem trim_content_pad (hmarks : ∀ c ∈ marks, c = byteOrderMark) (hleft : ∀ c ∈ left, isBlank c = true)
    (hright : ∀ c ∈ right, isBlank c = true) (ht : t.trim = t) (hfirst : t.head? ≠ some byteOrderMark)
    (hreturn : '\r' ∉ t) : Text.trim (content (marks ++ (left ++ (t ++ right)))) = t := by
  have hblank : ∀ blanks : Text, (∀ c ∈ blanks, isBlank c = true) → blanks.head? ≠ some byteOrderMark := by
    intro blanks hblanks hmark
    exact absurd (hblanks _ (List.mem_of_mem_head? hmark)) (by decide)
  -- What follows the byte order marks begins with none.
  have hmark : (left ++ (t ++ right)).head? ≠ some byteOrderMark := by
    intro h
    rw [List.head?_append, List.head?_append, Option.or_eq_some_iff, Option.or_eq_some_iff] at h
    rcases h with h | ⟨-, h | ⟨-, h⟩⟩
    · exact hblank left hleft h
    · exact hfirst h
    · exact hblank right hright h
  have hdrop : (left ++ (t ++ right)).dropWhile (· == byteOrderMark) = left ++ (t ++ right) := by
    cases hline : left ++ (t ++ right) with
    | nil => rfl
    | cons c rest =>
      rw [hline] at hmark
      exact List.dropWhile_cons_of_neg (by simpa using hmark)
  have hkept : t.filter (· != '\r') = t := by
    refine List.filter_eq_self.2 fun c hc => ?_
    simpa using fun h : c = '\r' => hreturn (h ▸ hc)
  rw [content, List.dropWhile_append_of_pos (by simpa using hmarks), hdrop, List.filter_append, List.filter_append,
    hkept, Text.trim_blanks_append fun c hc => hleft c (List.mem_of_mem_filter hc)]
  have hblanks : ∀ c ∈ right.filter (· != '\r'), isBlank c = true := fun c hc => hright c (List.mem_of_mem_filter hc)
  by_cases hnil : t = []
  · have hall := Text.trim_blanks_append hblanks []
    rw [List.append_nil] at hall
    rw [hnil, List.nil_append, hall]
    rfl
  · have htrimmed : t.IsTrimmed := ht ▸ Text.isTrimmed_trim (by rwa [ht])
    exact Text.trim_append_blanks htrimmed hblanks

/-- Byte order marks in front of a line, and blanks at both ends, carriage returns included, do not change what it
says. -/
theorem texts_pad (hmarks : ∀ c ∈ marks, c = byteOrderMark) (hleft : ∀ c ∈ left, isBlank c = true ∧ c ≠ '\n')
    (hright : ∀ c ∈ right, isBlank c = true ∧ c ≠ '\n') (ht : t.trim = t) (hfirst : t.head? ≠ some byteOrderMark)
    (hreturn : '\r' ∉ t) (hnewline : '\n' ∉ t) : texts (marks ++ (left ++ (t ++ right))) = texts t := by
  have hmark : '\n' ∉ marks := fun h => absurd (hmarks _ h) (by decide)
  have hline : '\n' ∉ marks ++ (left ++ (t ++ right)) := by
    simp only [List.mem_append, not_or]
    exact ⟨hmark, fun h => (hleft _ h).2 rfl, hnewline, fun h => (hright _ h).2 rfl⟩
  have hplain := @trim_content_pad [] [] t [] (by simp) (by simp) (by simp) ht hfirst hreturn
  rw [List.nil_append, List.nil_append, List.append_nil] at hplain
  have hpadded := trim_content_pad hmarks (fun c hc => (hleft c hc).1) (fun c hc => (hright c hc).1) ht hfirst hreturn
  rw [texts, trimmed, List.splitOn_eq_singleton hline, List.map_singleton, hpadded, texts, trimmed,
    List.splitOn_eq_singleton hnewline, List.map_singleton, hplain]

end Pad

end BlockScript.Line
