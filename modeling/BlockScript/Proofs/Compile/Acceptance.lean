import BlockScript.Proofs.Compile.Valid

/-!
# Which sources compile

Whether a source compiles can be told from its lines one by one: their kinds must follow the grammar of scripts, and
each line must compile where it stands alone, in a script or a container of its own (`compiles_iff`).  What a line says
does not depend on the other lines, and drawing ids never fails as long as they are all different.
-/

namespace BlockScript

/-- A source compiles if it gives scripts. -/
def Compiles (o : Options) (source : Text) : Prop :=
  ∃ scripts, (compileSource o false source).result = .ok scripts

/-- A `when` line that can be read. -/
def whenClicked : Text :=
  "when flag clicked".toList

/-- A text between newlines compiles by itself: a `when` line alone, a statement below a `when` line, and a line that
opens a container below a `when` line and above an `end`. -/
def CompilesAlone (o : Options) (t : Text) : LineKind → Prop
  | .trigger => Compiles o t
  | .statement => Compiles o (whenClicked ++ '\n' :: t)
  | .forever => Compiles o (whenClicked ++ '\n' :: (t ++ '\n' :: "end".toList))
  | .repeatTimes => Compiles o (whenClicked ++ '\n' :: (t ++ '\n' :: "end".toList))
  | .repeatUntil => Compiles o (whenClicked ++ '\n' :: (t ++ '\n' :: "end".toList))
  | .ifThen => Compiles o (whenClicked ++ '\n' :: (t ++ '\n' :: "end".toList))
  | _ => True

/-! ### Ids -/

namespace IdSource

theorem sequential_injective (stem : String) : Function.Injective (sequential stem) := by
  intro n k h
  have hdigits : Nat.toDigits 10 (n + 1) = Nat.toDigits 10 (k + 1) := by
    have hlists := congrArg String.toList h
    simpa [sequential, String.toList_append, Nat.toString_eq_ofList_toDigits] using hlists
  have hsucc : n + 1 = k + 1 := by
    rw [← Nat.ofDigitChars_ten_toDigits (n := n + 1), hdigits, Nat.ofDigitChars_ten_toDigits]
  omega

theorem default_injective : Function.Injective default :=
  sequential_injective "block"

theorem nodup_span {ids : IdSource} (h : Function.Injective ids) (n count : Nat) : (ids.span n count).Nodup :=
  List.Nodup.map h List.nodup_range'

end IdSource

theorem Outline.distinct_of_injective {r : Reader} {ids : IdSource} (h : Function.Injective ids) (n : Nat)
    (outlines : List Outline) : Distinct r ids n outlines := by
  induction outlines generalizing n with
  | nil => trivial
  | cons o outlines ih => exact ⟨ids.nodup_span h _ _, ih _⟩

/-- With ids that are all different, a source compiles exactly if its lines are those of scripts and can all be
read. -/
theorem compiles_iff_isReadable {o : Options} (h : Function.Injective o.ids) (source : Text) :
    Compiles o source ↔ (∃ outlines, Outline.allLines outlines = Line.significant source) ∧
      ∀ line ∈ Line.significant source, o.reader.isReadable line = true := by
  constructor
  · rintro ⟨scripts, hscripts⟩
    obtain ⟨outlines, hlines, -, hr, -⟩ := exists_outlines_of_result hscripts
    exact ⟨⟨outlines, hlines⟩, hr⟩
  · rintro ⟨⟨outlines, hlines⟩, hr⟩
    obtain ⟨fin, hfin, hscan⟩ := Line.exists_scan_eq source
    rw [← hlines] at hr hscan
    have hkinds : ∀ line ∈ Outline.allLines outlines, line.kind ≠ .finish := fun line hline =>
      (Line.kind_ne_finish_of_mem (hlines ▸ hline)).1
    obtain ⟨p, hp⟩ := Compile.run_of_outlines hfin hkinds hr (Outline.distinct_of_injective h 0 outlines)
    refine ⟨Outline.scripts o.reader o.ids 0 outlines, ?_⟩
    show (compileLines o (Line.scan source)).result = _
    rw [hscan, compileLines, hp]

/-! ### Lines of their own -/

namespace Line

private theorem not_mem_of_mem_splitOn {t : Text} {part : Text} (h : part ∈ t.splitOn '\n') : '\n' ∉ part := by
  induction t generalizing part with
  | nil =>
    obtain rfl : part = [] := by simpa using h
    exact List.not_mem_nil
  | cons c t ih =>
    obtain ⟨first, rest, hsplit⟩ := List.exists_cons_of_ne_nil (List.splitOn_ne_nil '\n' t)
    rw [List.splitOn_cons_eq_if_modifyHead, hsplit] at h
    rw [hsplit] at ih
    split_ifs at h with hnewline
    · rcases List.mem_cons.1 h with rfl | h
      · exact List.not_mem_nil
      · exact ih h
    · rcases List.mem_cons.1 h with rfl | h
      · have hc : c ≠ '\n' := by simpa using hnewline
        exact List.not_mem_cons_of_ne_of_not_mem hc.symm (ih List.mem_cons_self)
      · exact ih (List.mem_cons_of_mem _ h)

/-- The line of a text between newlines, if it has one. -/
def ofPhysical? (number : Nat) (physical : Text) : Option Line :=
  ofRaw? number (content physical)

theorem significant_of_not_mem {t : Text} (h : '\n' ∉ t) : significant t = (ofPhysical? 1 t).toList := by
  rw [significant_eq_ofPhysicals, List.splitOn_eq_singleton h]
  exact List.append_nil _

theorem significant_when {t : Text} (h : '\n' ∉ t) :
    significant (whenClicked ++ '\n' :: t) = ofText whenClicked 1 1 :: (ofPhysical? 2 t).toList := by
  rw [significant_eq_ofPhysicals, List.splitOn_append_cons_self_of_not_mem (by decide), List.splitOn_eq_singleton h]
  exact congrArg _ (List.append_nil _)

theorem significant_when_end {t : Text} (h : '\n' ∉ t) :
    significant (whenClicked ++ '\n' :: (t ++ '\n' :: "end".toList)) =
      ofText whenClicked 1 1 :: ((ofPhysical? 2 t).toList ++ [ofText "end".toList 3 1]) := by
  rw [significant_eq_ofPhysicals, List.splitOn_append_cons_self_of_not_mem (by decide),
    List.splitOn_append_cons_self_of_not_mem h]
  rfl

/-- The line of a text between newlines is the same at each place but for its number. -/
theorem ofPhysical_eq_map (number : Nat) (t : Text) :
    ofPhysical? number t = (ofPhysical? 1 t).map fun line => { line with number := (number : Int) } := by
  unfold ofPhysical? ofRaw?
  split_ifs
  · rfl
  · rfl

end Line

namespace Reader

variable (r : Reader)

/-- What a line says does not depend on where it stands. -/
theorem isReadable_number (line : Line) (number : Int) :
    r.isReadable { line with number := number } = r.isReadable line :=
  rfl

theorem isReadable_whenClicked : r.isReadable (Line.ofText whenClicked 1 1) = true := by
  have hlookup : (Vocabulary.lookup [.hat] whenClicked).map (fun found => (found.1.slots, found.1.isFilled [] [])) =
      some ([], true) := by
    decide +kernel
  obtain ⟨⟨op, values⟩, hfound, hop⟩ := Option.map_eq_some_iff.1 hlookup
  obtain ⟨hslots, hfilled⟩ := Prod.mk.inj hop
  rw [isReadable, instruction_trigger (by decide)]
  show (r.whole .hat whenClicked (.unknownTrigger whenClicked)).isComplete = true
  rw [whole, hfound]
  show (r.termAt 0 op values).isComplete = true
  rw [termAt, argumentsAt, show op.slots = [] from hslots]
  exact hfilled

/-- All lines of a source can be read if those of each text between newlines can. -/
theorem forall_isReadable_iff (source : Text) :
    (∀ line ∈ Line.significant source, r.isReadable line = true) ↔
      ∀ t ∈ source.splitOn '\n', ∀ line ∈ Line.ofPhysical? 1 t, r.isReadable line = true := by
  rw [Line.significant_eq_ofPhysicals]
  have hall : ∀ (physicals : List Text) (number : Nat),
      (∀ line ∈ Line.ofPhysicals number physicals, r.isReadable line = true) ↔
        ∀ t ∈ physicals, ∀ line ∈ Line.ofPhysical? 1 t, r.isReadable line = true := by
    intro physicals
    induction physicals with
    | nil => simp [Line.ofPhysicals]
    | cons t physicals ih =>
      intro number
      have ht : (∀ line ∈ (Line.ofPhysical? number t).toList, r.isReadable line = true) ↔
          ∀ line ∈ Line.ofPhysical? 1 t, r.isReadable line = true := by
        rw [Line.ofPhysical_eq_map]
        simp [isReadable_number]
      rw [Line.ofPhysicals, List.forall_mem_append, List.forall_mem_cons, ← ih (number + 1), ← ht]
      rfl
  exact hall _ 1

end Reader

/-! ### Sources -/

private theorem isTrigger_whenClicked : (Line.ofText whenClicked 1 1).kind = .trigger := by decide

/-- The line of the text is the second one below the click of the flag. -/
private theorem ofPhysical_two {t : Text} {line : Line} (hline : Line.ofPhysical? 1 t = some line) :
    Line.ofPhysical? 2 t = some { line with number := 2 } := by
  rw [Line.ofPhysical_eq_map, hline]
  rfl

section

variable {o : Options} (h : Function.Injective o.ids) {t : Text} {line : Line}

include h

private theorem compiles_of_outlines {source : Text} {outlines : List Outline}
    (hlines : Line.significant source = Outline.allLines outlines) :
    Compiles o source ↔ ∀ line ∈ Outline.allLines outlines, o.reader.isReadable line = true := by
  rw [compiles_iff_isReadable h, hlines]
  exact and_iff_right ⟨outlines, rfl⟩

/-- A line of its own below the click of the flag compiles if it can be read. -/
private theorem compiles_below_iff (ht : '\n' ∉ t) (hline : Line.ofPhysical? 1 t = some line)
    (hk : line.kind = .statement) :
    Compiles o (whenClicked ++ '\n' :: t) ↔ o.reader.isReadable line = true := by
  have hlines : Line.significant (whenClicked ++ '\n' :: t) = Outline.allLines
      [⟨_, isTrigger_whenClicked, [.statement { line with number := 2 } hk]⟩] := by
    rw [Line.significant_when ht, ofPhysical_two hline]
    rfl
  rw [compiles_of_outlines h hlines]
  simp [Outline.allLines, Outline.lines, Item.allLines, Item.lines, o.reader.isReadable_whenClicked,
    Reader.isReadable_number]

/-- A line that opens a construct compiles, with its `end`, if it can be read. -/
private theorem compiles_enclosed_iff (ht : '\n' ∉ t) (hline : Line.ofPhysical? 1 t = some line)
    (opens : line.kind.opens = true) :
    Compiles o (whenClicked ++ '\n' :: (t ++ '\n' :: "end".toList)) ↔ o.reader.isReadable line = true := by
  have hend : (Line.ofText "end".toList 3 1).kind = .close := by decide
  have hlines : Line.significant (whenClicked ++ '\n' :: (t ++ '\n' :: "end".toList)) = Outline.allLines
      [⟨_, isTrigger_whenClicked, [.enclosed { line with number := 2 } opens [] _ hend]⟩] := by
    rw [Line.significant_when_end ht, ofPhysical_two hline]
    rfl
  have hclose := o.reader.isReadable_close hend
  rw [compiles_of_outlines h hlines]
  -- the line of the `end` must not be computed below
  generalize Line.ofText "end".toList 3 1 = closer at hend hclose
  simp [Outline.allLines, Outline.lines, Item.allLines, Item.lines, o.reader.isReadable_whenClicked, hclose,
    Reader.isReadable_number]

/-- A text between newlines compiles by itself if its line can be read. -/
private theorem compilesAlone_iff (ht : '\n' ∉ t) (hline : Line.ofPhysical? 1 t = some line) :
    CompilesAlone o t line.kind ↔ o.reader.isReadable line = true := by
  have hkind : line.kind ≠ .finish ∧ ∀ name, line.kind ≠ .other name := by
    apply @Line.kind_ne_finish_of_mem t
    rw [Line.significant_of_not_mem ht, hline]
    exact List.mem_singleton_self line
  have hopener := compiles_enclosed_iff h ht hline
  cases hk : line.kind with
  | trigger =>
    have hlines : Line.significant t = Outline.allLines [⟨line, hk, []⟩] := by
      rw [Line.significant_of_not_mem ht, hline]
      rfl
    show Compiles o t ↔ _
    rw [compiles_of_outlines h hlines]
    simp [Outline.allLines, Outline.lines, Item.allLines]
  | statement => exact compiles_below_iff h ht hline hk
  | forever => exact hopener (by rw [hk]; rfl)
  | repeatTimes => exact hopener (by rw [hk]; rfl)
  | repeatUntil => exact hopener (by rw [hk]; rfl)
  | ifThen => exact hopener (by rw [hk]; rfl)
  | otherwise => exact iff_of_true trivial (o.reader.isReadable_otherwise hk)
  | close => exact iff_of_true trivial (o.reader.isReadable_close hk)
  | finish => exact absurd hk hkind.1
  | other name => exact absurd hk (hkind.2 name)

end

/-- A source compiles exactly if its lines are those of scripts and each of them compiles by itself. -/
theorem compiles_iff (names : NameTable) (limit : Int) (source : Text) :
    Compiles ⟨⟨names, limit⟩, IdSource.default⟩ source ↔
      (∃ outlines, Outline.allLines outlines = Line.significant source) ∧
        ∀ t ∈ source.splitOn '\n', ∀ line ∈ Line.significant t,
          CompilesAlone ⟨⟨names, limit⟩, IdSource.default⟩ t line.kind := by
  rw [compiles_iff_isReadable IdSource.default_injective, Reader.forall_isReadable_iff]
  refine and_congr_right fun _ => forall₂_congr fun t ht => ?_
  have hnewline := Line.not_mem_of_mem_splitOn ht
  rw [Line.significant_of_not_mem hnewline]
  refine forall_congr' fun line => ?_
  rw [Option.mem_toList]
  refine forall_congr' fun hline => ?_
  exact (compilesAlone_iff IdSource.default_injective hnewline hline).symm

end BlockScript
