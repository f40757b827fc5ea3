import BlockScript.Proofs.Builder.Grows
import BlockScript.Proofs.Expression.Words

/-!
# Formulas

Arithmetic over numbers and known names: as a tree (`Formula`), as it may be written (`Formula.Written`), and as the
blocks that it becomes (`Formula.ShownBy`).  A text is written with brackets where the signs on their own would group
its parts otherwise, and with any further brackets.

* `Formula.Written.exists_tokens`: what a written formula consists of outside brackets;
* `Formula.Written.value_eq`: reading a written formula gives its tree back;
* `Formula.shownBy_of_valueAt`: reading and building it adds the blocks of the tree and no others.
-/

namespace BlockScript

open Text

/-! ### Trees -/

/-- The signs of arithmetic. -/
inductive Sign where
  | plus
  | minus
  | times
  | divide
  | modulo
  deriving DecidableEq, Repr

namespace Sign

/-- The sign as it is written. -/
def text : Sign → Text
  | plus => ['+']
  | minus => ['-']
  | times => ['*']
  | divide => ['/']
  | modulo => ['m', 'o', 'd']

/-- How loosely the sign holds its operands together. -/
def level : Sign → Nat
  | plus => 2
  | minus => 2
  | times => 1
  | divide => 1
  | modulo => 1

/-- The opcode of the blocks for the sign. -/
def opcode : Sign → String
  | plus => "operator_add"
  | minus => "operator_subtract"
  | times => "operator_multiply"
  | divide => "operator_divide"
  | modulo => "operator_mod"

/-- The operation that the sign stands for. -/
def operation : Sign → Operation
  | plus => .add
  | minus => .subtract
  | times => .multiply
  | divide => .divide
  | modulo => .modulo

/-- The sign as an operator of arithmetic. -/
def operator (s : Sign) : Arithmetic.Operator :=
  ⟨s.text, s.operation⟩

theorem level_cases (s : Sign) : s.level = 2 ∨ s.level = 1 := by
  cases s <;> decide

theorem mem_sums_iff {o : Arithmetic.Operator} : o ∈ Arithmetic.sums ↔ ∃ s : Sign, s.level = 2 ∧ o = s.operator := by
  constructor
  · intro h
    simp only [Arithmetic.sums, List.mem_cons, List.not_mem_nil, or_false] at h
    rcases h with rfl | rfl
    · exact ⟨plus, rfl, rfl⟩
    · exact ⟨minus, rfl, rfl⟩
  · rintro ⟨s, hs, rfl⟩
    cases s with
    | plus => exact List.mem_cons_self
    | minus => exact List.mem_cons_of_mem _ List.mem_cons_self
    | _ => cases hs

theorem mem_products_iff {o : Arithmetic.Operator} :
    o ∈ Arithmetic.products ↔ ∃ s : Sign, s.level = 1 ∧ o = s.operator := by
  constructor
  · intro h
    simp only [Arithmetic.products, List.mem_cons, List.not_mem_nil, or_false] at h
    rcases h with rfl | rfl | rfl
    · exact ⟨times, rfl, rfl⟩
    · exact ⟨divide, rfl, rfl⟩
    · exact ⟨modulo, rfl, rfl⟩
  · rintro ⟨s, hs, rfl⟩
    cases s with
    | times => exact List.mem_cons_self
    | divide => exact List.mem_cons_of_mem _ List.mem_cons_self
    | modulo => exact List.mem_cons_of_mem _ (List.mem_cons_of_mem _ List.mem_cons_self)
    | _ => cases hs

theorem isValid_text (s : Sign) : (Token.word s.text).IsValid := by
  rcases s.level_cases with hs | hs
  · exact Arithmetic.isValid_sums s.operator (mem_sums_iff.2 ⟨s, hs, rfl⟩)
  · exact Arithmetic.isValid_products s.operator (mem_products_iff.2 ⟨s, hs, rfl⟩)

end Sign

/-- A tree of arithmetic. -/
inductive Formula where
  | number (digits : Text)
  | name (name : Text)
  | node (sign : Sign) (left right : Formula)
  deriving DecidableEq, Repr

namespace Formula

/-- The number of signs on the longest way from the root to a leaf. -/
def height : Formula → Nat
  | number _ => 0
  | name _ => 0
  | node _ left right => max left.height right.height + 1

/-- The number of blocks: one for each sign and each number. -/
def size : Formula → Nat
  | number _ => 1
  | name _ => 0
  | node _ left right => left.size + right.size + 1

/-- The leaves are numbers, and known names of letters that are not reserved. -/
def IsOver (table : NameTable) (reserved : List Text) : Formula → Prop
  | number t => IsNumeral t
  | name t => IsName t ∧ t ∉ reserved ∧ table.has (String.ofList t) = true
  | node _ left right => left.IsOver table reserved ∧ right.IsOver table reserved

/-- The ways to write a formula.  The level is that of the loosest sign outside brackets, and zero if there is none.
The left side of a sign may hold signs of its level, the right side only tighter ones. -/
inductive Written : Nat → Formula → Text → Prop where
  | number {t : Text} : Written 0 (number t) t
  | name {t : Text} : Written 0 (name t) t
  | bracketed {b : Bracket} {level : Nat} {f : Formula} {t : Text} (kind : b ∈ Bracket.ofValues)
      (inside : Written level f t) : Written 0 f (b.opener :: (t ++ [b.closer]))
  | node {s : Sign} {m n : Nat} {left right : Formula} {tl tr : Text} (leftSide : Written m left tl)
      (leftLevel : m ≤ s.level) (rightSide : Written n right tr) (rightLevel : n < s.level) :
      Written s.level (node s left right) (tl ++ ' ' :: (s.text ++ ' ' :: tr))

/-- The blocks of a formula in an arena: `input` is what the slot of the block `owner` holds.  A sign has a block of
its own with the left operand in `NUM1` and the right one in `NUM2`, a number a shadow, and a name is a reference. -/
def ShownBy (table : NameTable) (arena : Arena) (owner : BlockId) (slot : String) : Formula → Input → Prop
  | number t, input => ∃ id, input = .block slot .number id ∧
      arena.get? id =
        some ⟨id, "math_number", .reporter, [], [⟨"NUM", String.ofList t, none⟩], some owner, none, true, by simp⟩
  | name t, input => ∃ entry, table.lookup (String.ofList t) = some entry ∧
      input = .reference slot entry.id entry.name entry.kind
  | node s left right, input => ∃ id leftInput rightInput, input = .block slot .reporter id ∧
      arena.get? id =
        some ⟨id, s.opcode, .reporter, [leftInput, rightInput], [], some owner, none, false, by simp⟩ ∧
      left.ShownBy table arena id "NUM1" leftInput ∧ right.ShownBy table arena id "NUM2" rightInput

/-- What a formula means.  A name that is not known would be taken as it stands. -/
def argument (table : NameTable) : Formula → Argument
  | number t => .shadow Literal.number.shadow (String.ofList t)
  | name t =>
    match table.lookup (String.ofList t) with
    | some entry => .reference entry
    | none => .shadow Literal.number.shadow (String.ofList t)
  | node s left right =>
    .nested .reporter (.apply s.operation (.input "NUM1" (left.argument table)
      (.input "NUM2" (right.argument table) .done)))

end Formula

/-! ### Tokens -/

/-- A token of a formula, outside brackets, that has no sign looser than the level. -/
inductive Token.IsPart (reserved : List Text) (level : Nat) : Token → Prop where
  | number {t : Text} (isNumeral : IsNumeral t) : IsPart reserved level (.word t)
  | name {t : Text} (isName : IsName t) (notReserved : t ∉ reserved) : IsPart reserved level (.word t)
  | sign {s : Sign} (le : s.level ≤ level) : IsPart reserved level (.word s.text)
  | group {b : Bracket} {inside : Text} (kind : b ∈ Bracket.ofValues) : IsPart reserved level (.group b inside)

namespace Token.IsPart

variable {reserved : List Text} {level : Nat} {k : Token}

theorem mono {level' : Nat} (h : k.IsPart reserved level) (hle : level ≤ level') : k.IsPart reserved level' := by
  cases h with
  | number isNumeral => exact .number isNumeral
  | name isName notReserved => exact .name isName notReserved
  | sign le => exact .sign (Nat.le_trans le hle)
  | group kind => exact .group kind

/-- A part is none of the words that are neither numbers, nor names, nor signs. -/
theorem text_ne {word : Text} (h : k.IsPart reserved level) (hdigits : ∀ c ∈ word, c ∉ digits)
    (hname : word ∈ reserved ∨ ∃ c ∈ word, isLetter c = false) (hsign : ∀ s : Sign, s.level ≤ level → s.text ≠ word)
    (hopener : ∀ b ∈ Bracket.ofValues, word.head? ≠ some b.opener) : k.text ≠ word := by
  rintro rfl
  cases h with
  | number isNumeral =>
    obtain ⟨c, hc, hdigit⟩ := isNumeral.exists_digit
    exact hdigits c hc hdigit
  | name isName notReserved =>
    rcases hname with hreserved | ⟨c, hc, hletter⟩
    · exact notReserved hreserved
    · rw [isName.2 c hc] at hletter
      cases hletter
  | @sign s le => exact hsign s le rfl
  | @group b inside kind => exact hopener b kind rfl

/-- A part is no sign that is looser than the level. -/
theorem text_ne_sign (h : k.IsPart reserved level) (hmod : Sign.modulo.text ∈ reserved) {s : Sign}
    (hs : level < s.level) : k.text ≠ s.text := by
  have hinjective : ∀ s s' : Sign, s'.text = s.text → s' = s := by
    intro s s'
    cases s <;> cases s' <;> decide
  have hdigits : ∀ c ∈ s.text, c ∉ digits := forall_of_all (by cases s <;> decide)
  have hopener : ∀ b ∈ Bracket.ofValues, s.text.head? ≠ some b.opener := by cases s <;> decide
  refine h.text_ne hdigits ?_ (fun s' hs' he => ?_) hopener
  · cases s with
    | modulo => exact .inl hmod
    | _ => exact .inr ⟨_, List.mem_cons_self, by decide⟩
  · rw [hinjective s s' he] at hs'
    omega

end Token.IsPart

namespace Formula

variable {table : NameTable} {reserved : List Text} {f : Formula} {level : Nat} {t : Text}

namespace Written

/-- A written formula is a text of parts with single blanks between them. -/
theorem exists_tokens (h : f.Written level t) (hf : f.IsOver table reserved) :
    ∃ ks, AreTokens ks ∧ t = spaced ks ∧ ∀ k ∈ ks, k.IsPart reserved level := by
  induction h with
  | @number t => exact ⟨[.word t], .singleton hf.isValid rfl, rfl, List.forall_mem_singleton.2 (.number hf)⟩
  | @name t => exact ⟨[.word t], .singleton hf.1.isValid rfl, rfl, List.forall_mem_singleton.2 (.name hf.1 hf.2.1)⟩
  | @bracketed b level f t kind _ ih =>
    obtain ⟨ks, hks, rfl, -⟩ := ih hf
    exact ⟨[.group b (spaced ks)], .singleton hks.isClosed rfl, rfl, List.forall_mem_singleton.2 (.group kind)⟩
  | @node s m n left right tl tr _ leftLevel _ rightLevel ihl ihr =>
    obtain ⟨ks, hks, rfl, hparts⟩ := ihl hf.1
    obtain ⟨ks', hks', rfl, hparts'⟩ := ihr hf.2
    refine ⟨ks ++ .word s.text :: ks', hks.append s.isValid_text hks',
      (@AreTokens.spaced_append (.word s.text) ks ks' hks hks').symm, ?_⟩
    refine List.forall_mem_append.2 ⟨fun k hk => (hparts k hk).mono leftLevel, ?_⟩
    exact List.forall_mem_cons.2 ⟨.sign (Nat.le_refl _), fun k hk => (hparts' k hk).mono (Nat.le_of_lt rightLevel)⟩

/-- A written formula begins neither with an angle bracket nor with a quote. -/
theorem exists_first (h : f.Written level t) (hf : f.IsOver table reserved) :
    ∃ c rest, t = c :: rest ∧ c ∉ ['<', '"', '\''] := by
  induction h with
  | @number t =>
    have hout : ∀ c ∈ numeralChars, c ∉ ['<', '"', '\''] := forall_of_all (by decide)
    obtain ⟨c, rest, rfl⟩ := List.exists_cons_of_ne_nil hf.isValid.1
    exact ⟨c, rest, rfl, hout c (hf.chars c List.mem_cons_self)⟩
  | @name t =>
    have hout : ∀ c ∈ ['<', '"', '\''], isLetter c = false := forall_of_all (by decide)
    obtain ⟨c, rest, rfl⟩ := List.exists_cons_of_ne_nil hf.1.1
    refine ⟨c, rest, rfl, fun hc => ?_⟩
    have hletter := hf.1.2 c List.mem_cons_self
    rw [hout c hc] at hletter
    cases hletter
  | @bracketed b level f t kind _ _ =>
    have hout : ∀ b ∈ Bracket.ofValues, b.opener ∉ ['<', '"', '\''] := by decide
    exact ⟨_, _, rfl, hout b kind⟩
  | node _ _ _ _ ihl _ =>
    obtain ⟨c, rest, rfl, hc⟩ := ihl hf.1
    exact ⟨c, _, rfl, hc⟩

/-- A formula is written in one line. -/
theorem not_mem_newline (h : f.Written level t) (hf : f.IsOver table reserved) : '\n' ∉ t := by
  induction h with
  | number => exact fun hmem => absurd (hf.chars _ hmem) (by decide)
  | name => exact fun hmem => absurd (hf.1.2 _ hmem) (by decide)
  | @bracketed b level f t _ _ ih =>
    have hb : '\n' ≠ b.opener ∧ '\n' ≠ b.closer := by cases b <;> decide
    simp [hb, ih hf]
  | @node s m n left right tl tr _ _ _ _ ihl ihr =>
    have hs : '\n' ∉ s.text := by cases s <;> decide
    simp [hs, ihl hf.1, ihr hf.2]

/-- A formula with a sign splits at it. -/
theorem split?_eq {s : Sign} {m n : Nat} {left right : Formula} {tl tr : Text} (hl : left.Written m tl)
    (hm : m ≤ s.level) (hr : right.Written n tr) (hn : n < s.level) (hleft : left.IsOver table reserved)
    (hright : right.IsOver table reserved) (hmod : Sign.modulo.text ∈ reserved) :
    Arithmetic.split? (tl ++ ' ' :: (s.text ++ ' ' :: tr)) = some ⟨s.operation, tl, tr⟩ := by
  obtain ⟨ks, hks, rfl, hparts⟩ := hl.exists_tokens hleft
  obtain ⟨ks', hks', rfl, hparts'⟩ := hr.exists_tokens hright
  have hsums {level : Nat} (hlevel : level < 2) {k : Token} (hk : k.IsPart reserved level) :
      ∀ o ∈ Arithmetic.sums, k.text ≠ o.sign := by
    intro o ho
    obtain ⟨s, hs, rfl⟩ := Sign.mem_sums_iff.1 ho
    exact hk.text_ne_sign hmod (hs ▸ hlevel)
  have hproducts {level : Nat} (hlevel : level < 1) {k : Token} (hk : k.IsPart reserved level) :
      ∀ o ∈ Arithmetic.products, k.text ≠ o.sign := by
    intro o ho
    obtain ⟨s, hs, rfl⟩ := Sign.mem_products_iff.1 ho
    exact hk.text_ne_sign hmod (hs ▸ hlevel)
  rcases s.level_cases with hs | hs
  · exact Arithmetic.split?_eq_sum (Sign.mem_sums_iff.2 ⟨s, hs, rfl⟩) hks.isClosed hks' fun k hk =>
      hsums (by omega) (hparts' k hk)
  · refine Arithmetic.split?_eq_product (Sign.mem_products_iff.2 ⟨s, hs, rfl⟩) hks hks' ?_ fun k hk =>
      hproducts (by omega) (hparts' k hk)
    exact List.forall_mem_append.2 ⟨fun k hk => hsums (by omega) (hparts k hk),
      fun k hk => hsums (by omega) (hparts' k hk)⟩

end Written

end Formula

/-! ### Reading -/

namespace Reader

variable {r : Reader} {value : SlotKind → Text → Argument} {condition : Text → Term} {kind : Literal} {token t : Text}

/-- A value is read without the brackets around it. -/
theorem value_congr {s : Text} (h : s.bare = t.bare) (levels : Nat) (kind : SlotKind) :
    r.value levels kind s = r.value levels kind t := by
  cases levels with
  | zero => rfl
  | succ levels =>
    show r.valueStep _ _ kind s = r.valueStep _ _ kind t
    unfold valueStep
    rw [h]

theorem valueStep_known {entry : KnownName} (h : r.names.lookup (String.ofList token.bare) = some entry) :
    r.valueStep value condition (.literal kind) token = .reference entry := by
  unfold valueStep
  dsimp only
  rw [h]

/-- What begins neither with an angle bracket nor with a quote is read as a reporter or as it stands. -/
theorem valueStep_unknown (h : r.names.lookup (String.ofList token.bare) = none) {c : Char} {rest : Text}
    (hbare : token.bare = c :: rest) (hc : c ∉ ['<', '"', '\'']) :
    r.valueStep value condition (.literal kind) token =
      match r.reporterTerm? value condition token.bare with
      | some term => .nested .reporter term
      | none => .shadow kind.shadow (String.ofList token.bare) := by
  simp only [List.mem_cons, List.not_mem_nil, or_false, not_or] at hc
  have hwrapped : isWrapped [.angle] token.bare = false := by
    rw [hbare]
    unfold isWrapped
    split
    · rename_i d e rest heq
      obtain ⟨rfl, -⟩ := List.cons.inj heq
      split
      · rename_i b hb
        obtain rfl := Bracket.ofOpener?_eq_some_iff.1 hb
        cases b with
        | angle => exact absurd rfl hc.1
        | _ => rfl
      · rfl
    · rfl
  have hunquoted : token.bare.unquoted? = none := by
    rw [hbare]
    unfold unquoted?
    split
    · rename_i heq
      exact absurd (List.cons.inj heq).1 hc.2.1
    · rename_i heq
      exact absurd (List.cons.inj heq).1 hc.2.2
    · rfl
  unfold valueStep
  dsimp only
  rw [h, hwrapped, hunquoted]
  rfl

/-- An operand on each side of a sign. -/
theorem applied_operation (s : Sign) (left right : Text) :
    r.applied value condition s.operation [("NUM1", left), ("NUM2", right)] =
      .apply s.operation (.input "NUM1" (value .number left) (.input "NUM2" (value .number right) .done)) := by
  cases s <;> rfl

end Reader

namespace Formula

variable {r : Reader} {reserved : List Text} {f : Formula} {level : Nat} {t : Text}

/-- Reading a written formula gives its tree back, if there are levels enough.  In the slot of a comparison, where
texts are kept as well, this needs that a number has been found to be one. -/
theorem Written.value_eq (h : f.Written level t) (hf : f.IsOver r.names reserved) (htable : r.names.IsSimple reserved)
    (hmod : Sign.modulo.text ∈ reserved) {kind : Literal} (hkind : ∀ u, f = .number u → kind = .number)
    {levels : Nat} (hlevels : f.height < levels) : r.value levels (.literal kind) t = f.argument r.names := by
  induction h generalizing kind levels with
  | @number t =>
    obtain ⟨c, rest, rfl, hc⟩ := (number (t := t)).exists_first hf
    obtain ⟨levels, rfl⟩ := Nat.exists_eq_add_one.2 hlevels
    have hbare : bare (c :: rest) = c :: rest := peel_word hf.isValid
    have hlookup := htable.lookup_eq_none_of_isNumeral hf
    obtain rfl := hkind _ rfl
    show r.valueStep _ _ _ _ = _
    rw [Reader.valueStep_unknown (by rw [hbare]; exact hlookup) hbare hc, hbare, Reader.reporterTerm?,
      Reader.reporter?_eq_none_of_isNumeral hf]
    rfl
  | @name t =>
    obtain ⟨levels, rfl⟩ := Nat.exists_eq_add_one.2 hlevels
    obtain ⟨entry, hentry⟩ := Option.isSome_iff_exists.1 hf.2.2
    have hbare : bare t = t := peel_word hf.1.isValid
    show r.valueStep _ _ _ _ = _
    rw [Reader.valueStep_known (by rw [hbare]; exact hentry), argument, hentry]
  | @bracketed b level f t isValueBracket inside ih =>
    obtain ⟨ks, hks, rfl, -⟩ := inside.exists_tokens hf
    rw [Reader.value_congr (peel_group isValueBracket hks.isClosed)]
    exact ih hf hkind hlevels
  | @node s m n left right tl tr leftSide leftLevel rightSide rightLevel ihl ihr =>
    have hwritten := node leftSide leftLevel rightSide rightLevel
    have hsplit := leftSide.split?_eq leftLevel rightSide rightLevel hf.1 hf.2 hmod
    have hbare : bare (tl ++ ' ' :: (s.text ++ ' ' :: tr)) = tl ++ ' ' :: (s.text ++ ' ' :: tr) := by
      obtain ⟨ks, hks, rfl, -⟩ := leftSide.exists_tokens hf.1
      obtain ⟨ks', hks', rfl, -⟩ := rightSide.exists_tokens hf.2
      exact peel_append hks s.isValid_text hks'
    obtain ⟨c, rest, hfirst, hc⟩ := hwritten.exists_first hf
    obtain ⟨levels, rfl⟩ := Nat.exists_eq_add_one.2 (Nat.zero_lt_of_lt hlevels)
    rw [height] at hlevels
    have hlookup := htable.lookup_eq_none_of_split hmod hsplit
    show r.valueStep _ _ _ _ = _
    rw [Reader.valueStep_unknown (by rw [hbare]; exact hlookup) (hbare.trans hfirst) hc, hbare, Reader.reporterTerm?,
      Reader.reporter?, hsplit]
    show Argument.nested .reporter (r.applied _ _ s.operation [("NUM1", tl), ("NUM2", tr)]) = _
    rw [Reader.applied_operation, ihl hf.1 (fun _ _ => rfl) (by omega), ihr hf.2 (fun _ _ => rfl) (by omega), argument]

/-- The brackets around a number are removed. -/
theorem Written.bareCondition_eq (h : f.Written level t) (hf : f.IsOver r.names reserved) {u : Text}
    (hu : f = .number u) : t.bareCondition = u := by
  induction h with
  | @number t =>
    obtain rfl := number.inj hu
    exact peel_word hf.isValid
  | name => cases hu
  | @bracketed b level f t isValueBracket inside ih =>
    have hb : b ∈ Bracket.all := by cases b <;> decide
    obtain ⟨ks, hks, rfl, -⟩ := inside.exists_tokens hf
    exact (peel_group hb hks.isClosed).trans (ih hf hu)
  | node => cases hu

/-- An operand of a comparison is read as the formula that it is. -/
theorem Written.value_operandKind_eq (h : f.Written level t) (hf : f.IsOver r.names reserved)
    (htable : r.names.IsSimple reserved) (hmod : Sign.modulo.text ∈ reserved) {levels : Nat}
    (hlevels : f.height < levels) : r.value levels (operandKind t) t = f.argument r.names := by
  unfold operandKind
  split
  · exact h.value_eq hf htable hmod (fun _ _ => rfl) hlevels
  · rename_i hnumber
    refine h.value_eq hf htable hmod (fun u hu => absurd ?_ hnumber) hlevels
    rw [h.bareCondition_eq hf hu]
    subst hu
    exact IsNumeral.isNumber hf

/-! ### Building -/

variable {table : NameTable}

theorem isComplete_argument (table : NameTable) (f : Formula) : (f.argument table).isComplete = true := by
  induction f with
  | number => rfl
  | name t =>
    rw [argument]
    split <;> rfl
  | node s left right ihl ihr =>
    have hfilled : s.operation.isFilled ["NUM1", "NUM2"] [] = true := by cases s <;> decide
    rw [argument, Argument.isComplete, Term.isComplete, Arguments.isComplete, Arguments.isComplete, ihl, ihr]
    exact hfilled

theorem size_argument (hf : f.IsOver table reserved) : (f.argument table).size = f.size := by
  induction f with
  | number => rfl
  | name t =>
    obtain ⟨entry, hentry⟩ := Option.isSome_iff_exists.1 hf.2.2
    rw [argument, hentry]
    rfl
  | node s left right ihl ihr =>
    rw [argument, Argument.size, Term.size, Arguments.size, Arguments.size, ihl hf.1, ihr hf.2]
    rfl

/-- An arena with the blocks of what a formula means shows the formula. -/
theorem exists_shownBy (hf : f.IsOver table reserved) {arena : Arena} {ids : IdSource} {n : Nat} {owner : BlockId}
    (slot : String) (harena : ∀ c ∈ (f.argument table).blocks ids n owner, arena.get? c.id = some c) :
    ∃ input, (f.argument table).input? ids n slot = some input ∧ f.ShownBy table arena owner slot input := by
  induction f generalizing n owner slot with
  | number t => exact ⟨_, rfl, ids n, rfl, harena _ List.mem_cons_self⟩
  | name t =>
    obtain ⟨entry, hentry⟩ := Option.isSome_iff_exists.1 hf.2.2
    exact ⟨.reference slot entry.id entry.name entry.kind, by rw [argument, hentry]; rfl, entry, hentry, rfl⟩
  | node s left right ihl ihr =>
    rw [argument, Argument.blocks] at harena
    obtain ⟨hblocksLeft, hblocksRight, hroot⟩ := Term.found_of_pair harena
    obtain ⟨leftInput, hleft, hshownLeft⟩ := ihl hf.1 "NUM1" hblocksLeft
    obtain ⟨rightInput, hright, hshownRight⟩ := ihr hf.2 "NUM2" hblocksRight
    refine ⟨_, rfl, ids n, leftInput, rightInput, rfl, ?_, hshownLeft, hshownRight⟩
    refine (hroot leftInput rightInput hleft hright).trans ?_
    cases s <;> rfl

/-- Reading a written formula as a number and building it adds the blocks of its tree and no others.  The nesting may
reach the limit, and the ids that are drawn must be new. -/
theorem shownBy_of_valueAt (hwritten : f.Written level t) (hf : f.IsOver r.names [Sign.modulo.text])
    (htable : r.names.IsSimple [Sign.modulo.text]) {depth : Int} (hdepth : depth + f.height ≤ r.limit)
    (ids : IdSource) (owner : BlockId) (slot : String) {b : Builder} (hb : b.Sound)
    (hids : (b.issued ++ ids.span b.drawn f.size).Nodup) :
    ∃ input b' blocks, (r.valueAt depth .number t).emit ids owner slot b = .ok input b' ∧
      Builder.Grows ids f.size blocks b b' ∧ blocks.length = f.size ∧
        f.ShownBy r.names b'.arena owner slot input := by
  have hlevels : f.height < r.levelsAt depth := by
    unfold Reader.levelsAt
    omega
  have hvalue : r.valueAt depth .number t = f.argument r.names :=
    hwritten.value_eq hf htable List.mem_cons_self (fun _ _ => rfl) hlevels
  have hsize := size_argument hf
  rw [← hsize] at hids
  obtain ⟨input, b', hemit, hinput, hgrows, hget⟩ :=
    Argument.exists_emit ids owner slot (isComplete_argument r.names f) hb hids
  obtain ⟨input', hinput', hshown⟩ := exists_shownBy hf slot hget
  obtain rfl : input = input' := Option.some.inj (hinput.symm.trans hinput')
  have hlength := (f.argument r.names).length_blocks ids b.drawn owner
  rw [hsize] at hlength
  rw [hsize] at hgrows
  exact ⟨input, b', _, by rw [hvalue]; exact hemit, hgrows, hlength, hshown⟩

/-- A product of a sum and a negative fraction. -/
theorem shownBy_of_valueAt_product : ∃ input b' blocks,
    (Reader.valueAt ⟨⟨[⟨"x", "x-id", .globalVariable⟩]⟩, 2⟩ 0 .number "(1 + x) * [-2.5]".toList).emit IdSource.default
        "owner" "TIMES" (Builder.empty 0 #[]) = .ok input b' ∧
      Builder.Grows IdSource.default 4 blocks (Builder.empty 0 #[]) b' ∧ blocks.length = 4 ∧
        (node .times (node .plus (number ['1']) (name ['x'])) (number ['-', '2', '.', '5'])).ShownBy
          ⟨[⟨"x", "x-id", .globalVariable⟩]⟩ b'.arena "owner" "TIMES" input := by
  have hname : IsName ['x'] := ⟨by decide, forall_of_all (by decide)⟩
  have hsum : Written 2 (node .plus (number ['1']) (name ['x'])) "1 + x".toList :=
    @Written.node .plus _ _ _ _ _ _ .number (by decide) .name (by decide)
  have hproduct : Written 1 (node .times (node .plus (number ['1']) (name ['x'])) (number ['-', '2', '.', '5']))
      "(1 + x) * [-2.5]".toList :=
    @Written.node .times _ _ _ _ _ _ (@Written.bracketed .round _ _ _ (by decide) hsum) (by decide)
      (@Written.bracketed .square _ _ _ (by decide) .number) (by decide)
  refine shownBy_of_valueAt hproduct ?_ ?_ (by decide) IdSource.default "owner" "TIMES" (Builder.sound_empty 0 #[])
    (by decide +kernel)
  · refine ⟨⟨?_, hname, by decide, by decide +kernel⟩, ?_⟩
    · exact ⟨[], ['1'], [], rfl, .inl rfl, ⟨by decide, forall_of_all (by decide)⟩, .inl rfl⟩
    · exact ⟨['-'], ['2'], ['.', '5'], rfl, .inr rfl, ⟨by decide, forall_of_all (by decide)⟩,
        .inr ⟨['5'], rfl, by decide, forall_of_all (by decide)⟩⟩
  · intro entry hentry
    obtain rfl := List.mem_singleton.1 hentry
    exact .inr ⟨hname, by decide⟩

end Formula

end BlockScript
