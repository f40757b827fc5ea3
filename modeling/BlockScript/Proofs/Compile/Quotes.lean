import BlockScript.Proofs.Compile.Given
import BlockScript.Proofs.Vocabulary.Unambiguous

/-!
# Quoted values

What stands between quotes is kept as it is.  `say ["…"]` says the text between the quotes, whatever this text would
mean without them: nothing that reads the line looks between the quotes, unless the table of known names has an entry
with these quotes in its name (`says_of_quoted`).
-/

namespace BlockScript

namespace Text

/-- Whether a character can stand around a quoted text. -/
def IsQuote (c : Char) : Prop :=
  c = '"' ∨ c = '\''

/-- A text between quotes. -/
def between (quote : Char) (t : Text) : Text :=
  quote :: (t ++ [quote])

variable {quote : Char} {t : Text}

theorem isTrimmed_between (hquote : IsQuote quote) : (between quote t).IsTrimmed := by
  have hblank : isBlank quote = false := by rcases hquote with rfl | rfl <;> decide
  exact ⟨⟨quote, t ++ [quote], rfl, hblank⟩, quote :: t, quote, rfl, hblank⟩

private theorem ofOpener?_quote (hquote : IsQuote quote) : Bracket.ofOpener? quote = none := by
  rcases hquote with rfl | rfl <;> rfl

/-- Quotes are no brackets. -/
theorem bare_between (hquote : IsQuote quote) : (between quote t).bare = between quote t := by
  refine peel_of_first (isTrimmed_between hquote) fun c hc => ?_
  obtain rfl : quote = c := Option.some.inj hc
  exact ofOpener?_quote hquote

theorem isWrapped_between (hquote : IsQuote quote) (kinds : List Bracket) :
    isWrapped kinds (between quote t) = false := by
  unfold isWrapped between
  split
  · rename_i c d rest htext
    obtain rfl : quote = c := (List.cons.inj htext).1
    rw [ofOpener?_quote hquote]
  · rfl

theorem unquoted?_between (hquote : IsQuote quote) (ht : quote ∉ t) : (between quote t).unquoted? = some t := by
  have hfrom : unquotedFrom? quote (t ++ [quote]) = some t := by
    have hsuffix : [quote].isSuffixOf (t ++ [quote]) = true := List.isSuffixOf_iff_suffix.2 (List.suffix_append t _)
    rw [unquotedFrom?, hsuffix, List.dropLast_concat]
    simp [ht]
  rcases hquote with rfl | rfl <;> exact hfrom

end Text

/-- In a slot for a literal, a quoted text stands for the text between the quotes. -/
theorem Reader.valueAt_between {r : Reader} {quote : Char} {t : Text} (hlimit : 1 ≤ r.limit)
    (hquote : Text.IsQuote quote) (ht : quote ∉ t) (hname : r.names.lookup (String.ofList (Text.between quote t)) = none)
    (kind : Literal) : r.valueAt 1 (.literal kind) (Text.between quote t) = .shadow kind.shadow (String.ofList t) := by
  obtain ⟨levels, hlevels⟩ := exists_levelsAt_one hlimit
  rw [valueAt, hlevels, value, valueStep]
  · simp only [Text.bare_between hquote, hname, Text.isWrapped_between hquote, Text.unquoted?_between hquote ht]
    rfl
  · intro menu hmenu
    cases hmenu

/-! ### The command that says a text -/

/-- The text of a statement that says a value. -/
def sayText (value : Text) : Text :=
  "say [".toList ++ value ++ [']']

private def say : Operation :=
  .of "looks_say" .looks .command "say (MESSAGE)" [⟨"MESSAGE", .text⟩]

private theorem forms_say : say.forms = [Form.exactly "say".toList ++
    [.gap false, .oneOf ['(', '['], .shortest "MESSAGE", .oneOf [')', ']']]] := by
  decide

/-- No command that is tried before reads a text that begins so and ends with the bracket. -/
private theorem reaches_say : ∀ op ∈ Vocabulary.all.take 28, op.shape = .command → ∀ form ∈ op.forms,
    form.reaches ("say [".toList.map .given ++ [.anything, .given ']']) = false := by
  simp only [Operation.forms_eq_ofString]
  decide +kernel

private theorem sayText_eq (value : Text) : sayText value = "say".toList ++ ' ' :: '[' :: (value ++ [']']) := by
  have hstart : "say [".toList = "say".toList ++ [' ', '['] := rfl
  refine (congrArg (· ++ value ++ [']']) hstart).trans ?_
  rw [List.append_assoc, List.append_assoc, List.cons_append, List.singleton_append]

private theorem kindOf_sayText (value : Text) : Line.kindOf (sayText value) = (.statement, none) := by
  have hwords : ∀ word ∈ Line.openingWords, word.head?.any (· != 's') = true := by simp [Line.openingWords]
  have hfirst : (sayText value).head? = some 's' := by rw [sayText_eq]; simp
  refine Line.kindOf_eq_statement (fun word hword hprefix => ?_) fun c hc => ?_
  · obtain ⟨c, hc, hne⟩ := (Option.any_eq_true _ _).1 (hwords word hword)
    obtain ⟨rest, hrest⟩ := hprefix
    rw [← hrest, List.eq_cons_of_mem_head? hc, List.cons_append, List.head?_cons] at hfirst
    simp [Option.some.inj hfirst] at hne
  · rw [hfirst] at hc
    obtain rfl := Option.some.inj hc
    decide

/-- The message ends at the last bracket of the line. -/
private theorem match?_say {value : Text} (hvalue : value.IsTrimmed) (hline : '\n' ∉ value) :
    say.match? (sayText value) = some [("MESSAGE", value)] := by
  have hshorter : ∀ v : Text, v ≠ [] → v <:+ value → Form.match? [.oneOf [')', ']']] (v ++ [']']) = none := by
    intro v hv _
    obtain ⟨c, v, rfl⟩ := List.exists_cons_of_ne_nil hv
    show Piece.runOneOf [')', ']'] (Form.match? []) (c :: (v ++ [']'])) = none
    rw [Piece.runOneOf]
    split_ifs
    · exact if_neg (by simp)
    · rfl
  have hend : Form.match? [.oneOf [')', ']']] [']'] = some [] := Form.match?_oneOf (by decide) rfl
  have hmessage : Form.match? [.shortest "MESSAGE", .oneOf [')', ']']] (value ++ [']']) =
      some [("MESSAGE", value)] := by
    show Option.map (Piece.bind "MESSAGE") (Piece.runShortest (Form.match? [.oneOf [')', ']']]) _) = _
    rw [Piece.runShortest_eq_some hvalue.ne_nil hline hshorter hend, Option.map_some, Piece.bind,
      Text.trim_eq_self hvalue]
  show say.forms.findSome? _ = _
  rw [forms_say, sayText_eq, List.findSome?_cons, Form.match?_exactly,
    Form.match?_gap (by decide) (Form.match?_oneOf (by decide) hmessage)]

private theorem lookup_say {value : Text} (hvalue : value.IsTrimmed) (hline : '\n' ∉ value) :
    Vocabulary.lookup [.command] (sayText value) = some (say, [("MESSAGE", value)]) := by
  have hall : Vocabulary.all = Vocabulary.all.take 28 ++ say :: Vocabulary.all.drop 29 := rfl
  have hearlier : ∀ earlier ∈ Vocabulary.all.take 28, earlier.shape = say.shape →
      earlier.match? (sayText value) = none := by
    intro earlier hearlier hshape
    refine List.findSome?_eq_none_iff.2 fun form hform => ?_
    rw [Option.eq_none_iff_forall_ne_some]
    intro values hvalues
    -- the line fits a template that no form of an earlier command reaches, whatever the value is
    have htext : sayText value = "say [".toList ++ (value ++ [']']) := List.append_assoc _ _ _
    have hfits : Template.Fits ("say [".toList.map .given ++ [.anything, .given ']']) (sayText value) :=
      htext ▸ (Template.fits_given _).append ⟨value, [']'], rfl, trivial, [']'], [], rfl, rfl, rfl⟩
    have hreaches := Form.reaches_of_match? hvalues hfits
    rw [reaches_say earlier hearlier hshape form hform] at hreaches
    cases hreaches
  exact @Vocabulary.lookup_eq_some say _ _ _ _ hall hearlier (match?_say hvalue hline)

/-- The statement says the value, and it can be read if the value can. -/
private theorem phrase_say {r : Reader} {value : Text} (hvalue : value.IsTrimmed) (hline : '\n' ∉ value)
    (hcomplete : (r.valueAt 1 .text value).isComplete = true) {line : Line} (hl : line = .ofText (sayText value) 2 1) :
    line.kind = .statement ∧ r.phrase line = ⟨say, .input "MESSAGE" (r.valueAt 1 .text value) .done⟩ ∧
      r.isReadable line = true := by
  have hk : line.kind = .statement := by
    rw [hl]
    exact congrArg Prod.fst (kindOf_sayText value)
  have hlookup : Vocabulary.lookup [.command] line.text = some (say, [("MESSAGE", value)]) := by
    rw [hl]
    exact lookup_say hvalue hline
  have harguments : r.argumentsAt 0 say [("MESSAGE", value)] =
      .input "MESSAGE" (r.valueAt 1 .text value) .done := rfl
  have hfilled : say.isFilled ["MESSAGE"] [] = true := by decide
  obtain ⟨hphrase, hreadable⟩ := Reader.phrase_statement (r := r) hk hlookup
  refine ⟨hk, hphrase.trans (congrArg _ harguments), ?_⟩
  rw [hreadable, Reader.termAt, harguments]
  simp [Term.isComplete, Arguments.isComplete, Arguments.inputNames, Arguments.fieldNames, hfilled, hcomplete]

/-! ### Quoted texts -/

/-- A script that says a quoted text. -/
def quoteSource (quote : Char) (t : Text) : Text :=
  whenClicked ++ '\n' :: sayText (Text.between quote t)

/-- A quoted text is said as it stands between the quotes, unless the quoted text is the name of something. -/
theorem says_of_quoted {o : Options} {quote : Char} {t : Text} (hids : Function.Injective o.ids)
    (hlimit : 1 ≤ o.reader.limit) (hquote : Text.IsQuote quote) (ht : quote ∉ t ∧ '\n' ∉ t ∧ '\r' ∉ t)
    (hnames : ∀ entry ∈ o.reader.names.entries, entry.name ≠ String.ofList (Text.between quote t)) (validate : Bool) :
    ∃ script b shadow, (compileSource o validate (quoteSource quote t)).result = .ok [script] ∧
      script.second? = some b ∧ b.opcode = "looks_say" ∧ b.inputs = [.block "MESSAGE" .text shadow.id] ∧
      script.blocks.get? shadow.id = some shadow ∧ shadow.shadow = true ∧ shadow.opcode = "text" ∧
      shadow.fields = [⟨"TEXT", String.ofList t, none⟩] := by
  obtain ⟨hout, hline, hreturn⟩ := ht
  have hquotes : quote ≠ '\n' ∧ quote ≠ '\r' := by rcases hquote with rfl | rfl <;> decide
  have htrimmed : (Text.between quote t).IsTrimmed := Text.isTrimmed_between hquote
  have hlines : '\n' ∉ Text.between quote t := by simp [Text.between, hline, hquotes.1.symm]
  have hname : o.reader.names.lookup (String.ofList (Text.between quote t)) = none :=
    List.find?_eq_none.2 fun entry hentry => by simpa using hnames entry hentry
  have hvalue : o.reader.valueAt 1 .text (Text.between quote t) = .shadow Literal.text.shadow (String.ofList t) :=
    Reader.valueAt_between hlimit hquote hout hname .text
  have hphysical : Line.ofPhysical? 2 (sayText (Text.between quote t)) =
      some (.ofText (sayText (Text.between quote t)) 2 1) :=
    Line.ofPhysical?_between (by decide) (by decide) (by simp [Text.between, hreturn, hquotes.2.symm]) 2
  obtain ⟨hk, hphrase, hreadable⟩ := phrase_say htrimmed hlines (by rw [hvalue]; rfl) rfl
  obtain ⟨script, n, hresult, hsecond, hbefore⟩ := exists_script_with_arguments
    (by simp [sayText_eq, hlines]) hphysical hk hids hreadable validate
  rw [hphrase, hvalue] at hsecond hbefore
  exact ⟨script, _, _, hresult, hsecond, rfl, rfl, hbefore _ List.mem_cons_self, rfl, rfl, rfl⟩

/-- A quoted text with blanks at its ends, brackets that do not match, operators and the words of another command. -/
theorem says_of_quoted_brackets : ∃ script b shadow,
    (compileSource ⟨⟨⟨[⟨"d", "id-1", .globalVariable⟩]⟩, 1⟩, .default⟩ true
      "when flag clicked\nsay [\" a + (b]) for (2) seconds // <c> or 'd' \"]".toList).result = .ok [script] ∧
    script.second? = some b ∧ b.opcode = "looks_say" ∧ b.inputs = [.block "MESSAGE" .text shadow.id] ∧
    script.blocks.get? shadow.id = some shadow ∧ shadow.opcode = "text" ∧
    shadow.fields = [⟨"TEXT", " a + (b]) for (2) seconds // <c> or 'd' ", none⟩] := by
  have hsource : "when flag clicked\nsay [\" a + (b]) for (2) seconds // <c> or 'd' \"]".toList =
      quoteSource '"' " a + (b]) for (2) seconds // <c> or 'd' ".toList := by
    decide
  obtain ⟨script, b, shadow, hresult, hsecond, hopcode, hinputs, hget, -, htext, hfields⟩ :=
    @says_of_quoted ⟨⟨⟨[⟨"d", "id-1", .globalVariable⟩]⟩, 1⟩, .default⟩ '"'
      " a + (b]) for (2) seconds // <c> or 'd' ".toList IdSource.default_injective (by decide) (.inl rfl)
      (by decide) (by decide) true
  rw [String.ofList_toList] at hfields
  rw [hsource]
  exact ⟨script, b, shadow, hresult, hsecond, hopcode, hinputs, hget, htext, hfields⟩

end BlockScript
