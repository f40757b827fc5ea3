import BlockScript.Proofs.Expression.Formula
import BlockScript.Proofs.Expression.Predicate

/-!
# Conditions

Comparisons of formulas and the predicates `mouse down?`, `key (… v) pressed?` and `not <…>`, put together by `and`
and `or`: as a tree (`Condition`), as it may be written (`Condition.Written`), and as the blocks that it becomes
(`Condition.ShownBy`).  An angle sign between blanks compares, and one beside another character is a bracket, so that
a comparison inside angle brackets stays one.  The menu of keys holds a key as it is written, but for the words that
menus store under another name (`Condition.renamed`).

* `Condition.Written.exists_tokens`: what a written condition consists of outside brackets;
* `Condition.Written.means`: reading a written condition gives its tree back;
* `Condition.shownBy_of_conditionAt`: reading and building it adds the blocks of the tree and no others.
-/

namespace BlockScript

open Text

/-! ### Trees -/

/-- The comparisons. -/
inductive Comparison where
  | equal
  | greater
  | less
  deriving DecidableEq, Repr

namespace Comparison

/-- The comparison as it is written. -/
def text : Comparison → Text
  | equal => ['=']
  | greater => ['>']
  | less => ['<']

/-- The opcode of the blocks for the comparison. -/
def opcode : Comparison → String
  | equal => "operator_equals"
  | greater => "operator_gt"
  | less => "operator_lt"

/-- The operation that the comparison stands for. -/
def operation : Comparison → Operation
  | equal => .equals
  | greater => .greater
  | less => .less

/-- The comparison as a token. -/
def token : Comparison → Token
  | equal => .word ['=']
  | greater => .sign '>'
  | less => .sign '<'

theorem text_token (s : Comparison) : s.token.text = s.text := by
  cases s <;> rfl

theorem isValid_token (s : Comparison) : s.token.IsValid := by
  cases s with
  | equal => exact ⟨by decide, forall_of_all (by decide)⟩
  | greater => exact .inr rfl
  | less => exact .inl rfl

end Comparison

/-- The connectives. -/
inductive Connective where
  | either
  | both
  deriving DecidableEq, Repr

namespace Connective

/-- The connective as it is written. -/
def text : Connective → Text
  | either => ['o', 'r']
  | both => ['a', 'n', 'd']

/-- How loosely the connective holds its sides together; comparisons are at level one. -/
def level : Connective → Nat
  | either => 3
  | both => 2

/-- The opcode of the blocks for the connective. -/
def opcode : Connective → String
  | either => "operator_or"
  | both => "operator_and"

/-- The operation that the connective stands for. -/
def operation : Connective → Operation
  | either => .either
  | both => .both

theorem isValid_text (w : Connective) : (Token.word w.text).IsValid := by
  cases w <;> exact ⟨by decide, forall_of_all (by decide)⟩

end Connective

/-- A tree of conditions. -/
inductive Condition where
  | mouseDown
  | keyPressed (key : Text)
  | negation (operand : Condition)
  | comparison (sign : Comparison) (left right : Formula)
  | connective (word : Connective) (left right : Condition)
  deriving DecidableEq, Repr

namespace Condition

/-- The words that are no names in conditions. -/
def reserved : List Text :=
  [Sign.modulo.text, Connective.either.text, Connective.both.text, ['n', 'o', 't']]

/-- The number of levels that a condition takes below its own. -/
def height : Condition → Nat
  | mouseDown => 0
  | keyPressed _ => 1
  | negation operand => operand.height + 1
  | comparison _ left right => max left.height right.height + 1
  | connective _ left right => max left.height right.height + 1

/-- The number of blocks. -/
def size : Condition → Nat
  | mouseDown => 1
  | keyPressed _ => 2
  | negation operand => operand.size + 1
  | comparison _ left right => left.size + right.size + 1
  | connective _ left right => left.size + right.size + 1

/-- The words of letters that the editor stores under another name when they are entries of menus. -/
def renamed : List Text :=
  ["myself".toList, "edge".toList]

/-- The operands of comparisons are formulas over known names, and keys are words that are neither known names nor
stored under another name. -/
def IsOver (table : NameTable) : Condition → Prop
  | mouseDown => True
  | keyPressed key => IsName key ∧ key ∉ renamed ∧ table.lookup (String.ofList key) = none
  | negation operand => operand.IsOver table
  | comparison _ left right => left.IsOver table reserved ∧ right.IsOver table reserved
  | connective _ left right => left.IsOver table ∧ right.IsOver table

/-- The ways to write a condition.  The level is that of the loosest word outside brackets, and zero if there is
none.  The right side of a connective may hold connectives of its level, the left side only tighter ones. -/
inductive Written : Nat → Condition → Text → Prop where
  | mouseDown : Written 0 mouseDown "mouse down?".toList
  | keyPressed {key : Text} : Written 0 (keyPressed key) ("key (".toList ++ (key ++ " v) pressed?".toList))
  | negation {level : Nat} {c : Condition} {t : Text} (inside : Written level c t) :
      Written 0 (negation c) ("not <".toList ++ (t ++ ['>']))
  | bracketed {level : Nat} {c : Condition} {t : Text} (inside : Written level c t) :
      Written 0 c ('<' :: (t ++ ['>']))
  | comparison {s : Comparison} {m n : Nat} {left right : Formula} {tl tr : Text} (leftSide : left.Written m tl)
      (rightSide : right.Written n tr) : Written 1 (comparison s left right) (tl ++ ' ' :: (s.text ++ ' ' :: tr))
  | connective {w : Connective} {m n : Nat} {left right : Condition} {tl tr : Text} (leftSide : Written m left tl)
      (leftLevel : m < w.level) (rightSide : Written n right tr) (rightLevel : n ≤ w.level) :
      Written w.level (connective w left right) (tl ++ ' ' :: (w.text ++ ' ' :: tr))

/-- The blocks of a condition in an arena, where `id` is the topmost of them and `owner` the block that holds it.  The
menu of keys holds the key as it is written. -/
def ShownBy (table : NameTable) (arena : Arena) (owner : Option BlockId) : Condition → BlockId → Prop
  | mouseDown, id =>
    arena.get? id = some ⟨id, "sensing_mousedown", .boolean, [], [], owner, none, false, by simp⟩
  | keyPressed key, id => ∃ menu,
      arena.get? id = some ⟨id, "sensing_keypressed", .boolean, [.block "KEY_OPTION" .menu menu], [], owner, none,
        false, by simp⟩ ∧
      arena.get? menu = some ⟨menu, "sensing_keyoptions", .reporter, [],
        [⟨"KEY_OPTION", String.ofList key, none⟩], some id, none, true, by simp⟩
  | negation operand, id => ∃ operandId,
      arena.get? id = some ⟨id, "operator_not", .boolean, [.block "OPERAND" .boolean operandId], [], owner, none,
        false, by simp⟩ ∧
      operand.ShownBy table arena (some id) operandId
  | comparison s left right, id => ∃ leftInput rightInput,
      arena.get? id = some ⟨id, s.opcode, .boolean, [leftInput, rightInput], [], owner, none, false, by simp⟩ ∧
      left.ShownBy table arena id "OPERAND1" leftInput ∧ right.ShownBy table arena id "OPERAND2" rightInput
  | connective w left right, id => ∃ leftId rightId,
      arena.get? id = some ⟨id, w.opcode, .boolean, [.block "OPERAND1" .boolean leftId,
        .block "OPERAND2" .boolean rightId], [], owner, none, false, by simp⟩ ∧
      left.ShownBy table arena (some id) leftId ∧ right.ShownBy table arena (some id) rightId

/-- The terms that a condition means.  Predicates are reported with the text that they were read from. -/
inductive Means (table : NameTable) : Condition → Term → Prop where
  | mouseDown {event : Event} : Means table mouseDown (.noted event (.apply .mouseDown .done))
  | keyPressed {event : Event} {key : Text} : Means table (keyPressed key) (.noted event (.apply .keyPressed
      (.input "KEY_OPTION" (.shadow Menu.key.shadow (String.ofList key)) .done)))
  | negation {event : Event} {c : Condition} {term : Term} (operand : Means table c term) :
      Means table (negation c) (.noted event (.apply .negation (.input "OPERAND" (.nested .boolean term) .done)))
  | comparison {s : Comparison} {left right : Formula} : Means table (comparison s left right)
      (.apply s.operation (.input "OPERAND1" (left.argument table) (.input "OPERAND2" (right.argument table) .done)))
  | connective {w : Connective} {left right : Condition} {leftTerm rightTerm : Term}
      (leftSide : Means table left leftTerm) (rightSide : Means table right rightTerm) :
      Means table (connective w left right) (.apply w.operation (.input "OPERAND1" (.nested .boolean leftTerm)
        (.input "OPERAND2" (.nested .boolean rightTerm) .done)))

end Condition

/-! ### Tokens -/

/-- The words in predicates. -/
def Condition.predicateWords : List Text :=
  ["mouse".toList, "down?".toList, "key".toList, "pressed?".toList, "not".toList]

/-- A token that is no connective looser than the level, and at level zero no comparison either. -/
structure Token.IsWithin (level : Nat) (k : Token) : Prop where
  connective : ∀ w : Connective, level < w.level → k.text ≠ w.text
  comparison : level = 0 → ∀ s : Comparison, k.text ≠ s.text

namespace Token.IsWithin

variable {level : Nat} {k : Token}

theorem mono {level' : Nat} (h : k.IsWithin level) (hle : level ≤ level') : k.IsWithin level' where
  connective w hw := h.connective w (Nat.lt_of_le_of_lt hle hw)
  comparison hzero := h.comparison (Nat.eq_zero_of_le_zero (hzero ▸ hle))

/-- A token that is none of the words at which conditions split. -/
theorem of_text (hconnective : ∀ w : Connective, k.text ≠ w.text) (hcomparison : ∀ s : Comparison, k.text ≠ s.text)
    (level : Nat) : k.IsWithin level :=
  ⟨fun w _ => hconnective w, fun _ => hcomparison⟩

theorem group (b : Bracket) (inside : Text) (level : Nat) : (Token.group b inside).IsWithin level := by
  refine of_text (fun w he => ?_) (fun s he => ?_) level
  · have hopener : w.text.head? ≠ some b.opener := by cases w <;> cases b <;> decide
    exact hopener (congrArg List.head? he).symm
  · have hlength : s.text.length = 1 := by cases s <;> rfl
    rw [← he] at hlength
    simp [Token.text] at hlength

/-- A part of a formula is none of the words at which conditions split. -/
theorem of_isPart {formulaLevel : Nat} (h : k.IsPart Condition.reserved formulaLevel) (level : Nat) :
    k.IsWithin level := by
  -- for the connectives and then for the comparisons: they are no numbers, no names, no signs and no groups
  refine of_text (fun w => h.text_ne ?_ ?_ (fun s _ => ?_) ?_) (fun s => h.text_ne ?_ ?_ (fun s' _ => ?_) ?_) level
  · exact forall_of_all (by cases w <;> decide)
  · cases w <;> exact .inl (by decide)
  · cases w <;> cases s <;> decide
  · cases w <;> decide
  · exact forall_of_all (by cases s <;> decide)
  · cases s <;> exact .inr ⟨_, List.mem_cons_self, by decide⟩
  · cases s <;> cases s' <;> decide
  · cases s <;> decide

/-- The words of predicates are words of their own. -/
theorem of_predicate : ∀ word ∈ Condition.predicateWords, (Token.word word).IsValid ∧ (Token.word word).IsWithin 0 := by
  have hwords : ∀ word ∈ Condition.predicateWords, (word ≠ [] ∧ word.all (IsPlain ·) = true) ∧
      word ∉ [Connective.either.text, Connective.both.text] ∧
        word ∉ [Comparison.equal.text, Comparison.greater.text, Comparison.less.text] := by
    decide
  intro word hword
  obtain ⟨⟨hne, hplain⟩, hconnectives, hcomparisons⟩ := hwords word hword
  refine ⟨⟨hne, forall_of_all hplain⟩, of_text (fun w he => hconnectives ?_) (fun s he => hcomparisons ?_) 0⟩
  · rw [show word = w.text from he]
    cases w <;> decide
  · rw [show word = s.text from he]
    cases s <;> decide

theorem of_comparison (s : Comparison) : s.token.IsWithin 1 where
  connective w _ := by cases s <;> cases w <;> decide
  comparison hzero := nomatch hzero

theorem of_connective (w : Connective) : (Token.word w.text).IsWithin w.level where
  connective w' hw' := by
    have hinjective : w.text = w'.text → w = w' := by cases w <;> cases w' <;> decide
    intro he
    rw [hinjective he] at hw'
    exact Nat.lt_irrefl _ hw'
  comparison hzero := by cases w <;> cases hzero

end Token.IsWithin

namespace Condition

variable {r : Reader} {table : NameTable} {c : Condition} {level : Nat} {t : Text}

namespace Written

/-- A written condition is a text of tokens with single blanks between them. -/
theorem exists_tokens (h : c.Written level t) (hc : c.IsOver table) :
    ∃ ks, AreTokens ks ∧ t = spaced ks ∧ ∀ k ∈ ks, k.IsWithin level := by
  induction h with
  | mouseDown =>
    obtain ⟨hmouse, hmouseWithin⟩ := Token.IsWithin.of_predicate "mouse".toList (by decide)
    obtain ⟨hdown, hdownWithin⟩ := Token.IsWithin.of_predicate "down?".toList (by decide)
    exact ⟨[.word "mouse".toList, .word "down?".toList], .cons hmouse rfl (.singleton hdown rfl), rfl,
      List.forall_mem_cons.2 ⟨hmouseWithin, List.forall_mem_singleton.2 hdownWithin⟩⟩
  | @keyPressed key =>
    obtain ⟨hkey, hkeyWithin⟩ := Token.IsWithin.of_predicate "key".toList (by decide)
    obtain ⟨hpressed, hpressedWithin⟩ := Token.IsWithin.of_predicate "pressed?".toList (by decide)
    have hinside : AreTokens [.word key, .word ['v']] :=
      .cons hc.1.isValid rfl (.singleton ⟨by decide, forall_of_all (by decide)⟩ rfl)
    refine ⟨[.word "key".toList, .group .round (spaced [.word key, .word ['v']]), .word "pressed?".toList],
      .cons hkey rfl (.cons hinside.isClosed rfl (.singleton hpressed rfl)), ?_,
      List.forall_mem_cons.2 ⟨hkeyWithin, List.forall_mem_cons.2 ⟨.group .round _ 0,
        List.forall_mem_singleton.2 hpressedWithin⟩⟩⟩
    simp [spaced, Token.text, Bracket.opener, Bracket.closer]
  | @negation level c t _ ih =>
    obtain ⟨ks, hks, rfl, -⟩ := ih hc
    obtain ⟨hnot, hnotWithin⟩ := Token.IsWithin.of_predicate "not".toList (by decide)
    exact ⟨[.word "not".toList, .group .angle (spaced ks)], .cons hnot rfl (.singleton hks.isClosed rfl), rfl,
      List.forall_mem_cons.2 ⟨hnotWithin, List.forall_mem_singleton.2 (.group .angle _ 0)⟩⟩
  | @bracketed level c t _ ih =>
    obtain ⟨ks, hks, rfl, -⟩ := ih hc
    exact ⟨[.group .angle (spaced ks)], .singleton hks.isClosed rfl, rfl,
      List.forall_mem_singleton.2 (.group .angle _ 0)⟩
  | @comparison s m n left right tl tr leftSide rightSide =>
    obtain ⟨ks, hks, rfl, hparts⟩ := leftSide.exists_tokens hc.1
    obtain ⟨ks', hks', rfl, hparts'⟩ := rightSide.exists_tokens hc.2
    refine ⟨ks ++ s.token :: ks', hks.append s.isValid_token hks', ?_, ?_⟩
    · rw [hks.spaced_append hks', s.text_token]
    · refine List.forall_mem_append.2 ⟨fun k hk => .of_isPart (hparts k hk) 1, ?_⟩
      exact List.forall_mem_cons.2 ⟨.of_comparison s, fun k hk => .of_isPart (hparts' k hk) 1⟩
  | @connective w m n left right tl tr _ leftLevel _ rightLevel ihl ihr =>
    obtain ⟨ks, hks, rfl, hwithin⟩ := ihl hc.1
    obtain ⟨ks', hks', rfl, hwithin'⟩ := ihr hc.2
    refine ⟨ks ++ .word w.text :: ks', hks.append w.isValid_text hks', ?_, ?_⟩
    · exact (@AreTokens.spaced_append (.word w.text) ks ks' hks hks').symm
    · refine List.forall_mem_append.2 ⟨fun k hk => (hwithin k hk).mono (Nat.le_of_lt leftLevel), ?_⟩
      exact List.forall_mem_cons.2 ⟨.of_connective w, fun k hk => (hwithin' k hk).mono rightLevel⟩

/-- A condition is written in one line. -/
theorem not_mem_newline (h : c.Written level t) (hc : c.IsOver table) : '\n' ∉ t := by
  induction h with
  | mouseDown => decide
  | @keyPressed key =>
    have hkey : '\n' ∉ key := fun hmem => absurd (hc.1.2 _ hmem) (by decide)
    simp [hkey]
  | negation _ ih => simp [ih hc]
  | bracketed _ ih => simp [ih hc]
  | @comparison s m n left right tl tr leftSide rightSide =>
    have hs : '\n' ∉ s.text := by cases s <;> decide
    simp [hs, leftSide.not_mem_newline hc.1, rightSide.not_mem_newline hc.2]
  | @connective w m n left right tl tr _ _ _ _ ihl ihr =>
    have hw : '\n' ∉ w.text := by cases w <;> decide
    simp [hw, ihl hc.1, ihr hc.2]

end Written

end Condition

/-! ### Reading -/

namespace Reader

variable {r : Reader} {value : SlotKind → Text → Argument} {condition : Text → Term} {token t : Text}

/-- A condition is read without the brackets around it. -/
theorem condition_congr {s : Text} (h : s.bareCondition = t.bareCondition) (levels : Nat) :
    r.condition levels s = r.condition levels t := by
  cases levels with
  | zero => rfl
  | succ levels =>
    show r.conditionStep _ _ s = r.conditionStep _ _ t
    unfold conditionStep
    rw [h]

variable {words before after : List (Text × Operation)} {ks ks' : List Token}

theorem splitAtFirst?_eq_none (h : AreTokens ks) (hwords : ∀ w ∈ words, IsSplitter w.1)
    (hks : ∀ k ∈ ks, ∀ w ∈ words, k.text ≠ w.1) : splitAtFirst? words (spaced ks) = none := by
  rw [splitAtFirst?, List.findSome?_eq_none_iff]
  intro w hw
  rw [splitAtWord_eq_none (hwords w hw) h fun k hk => hks k hk w hw, Option.map_none]

/-- A text splits at a token that is one of the words, if no token is a word before, nor any on the left this word. -/
theorem splitAtFirst?_eq_some {k : Token} {op : Operation} (h : AreTokens ks) (hk : k.IsValid) (h' : AreTokens ks')
    (hwords : ∀ w ∈ before ++ (k.text, op) :: after, IsSplitter w.1)
    (hbefore : ∀ k' ∈ ks ++ k :: ks', ∀ w ∈ before, k'.text ≠ w.1) (hleft : ∀ k' ∈ ks, k'.text ≠ k.text) :
    splitAtFirst? (before ++ (k.text, op) :: after) (spaced ks ++ ' ' :: (k.text ++ ' ' :: spaced ks')) =
      some (op, spaced ks, spaced ks') := by
  obtain ⟨hwordsBefore, hword⟩ := List.forall_mem_append.1 hwords
  have hnone := splitAtFirst?_eq_none (h.append hk h') hwordsBefore hbefore
  rw [h.spaced_append h', splitAtFirst?] at hnone
  have hsome := splitAtWord_eq_some (hword _ List.mem_cons_self) h hleft h'.isTrimmed
  rw [splitAtFirst?, List.findSome?_append, hnone, Option.none_or, List.findSome?_cons, hsome]
  rfl

private theorem mem_connectives {w : Text × Operation} (h : w ∈ connectives) :
    ∃ c : Connective, w = (c.text, c.operation) := by
  simp only [connectives, List.mem_cons, List.not_mem_nil, or_false] at h
  rcases h with rfl | rfl
  · exact ⟨.either, rfl⟩
  · exact ⟨.both, rfl⟩

private theorem mem_comparisons {w : Text × Operation} (h : w ∈ comparisons) :
    ∃ s : Comparison, w = (s.text, s.operation) := by
  simp only [comparisons, List.mem_cons, List.not_mem_nil, or_false] at h
  rcases h with rfl | rfl | rfl
  · exact ⟨.equal, rfl⟩
  · exact ⟨.greater, rfl⟩
  · exact ⟨.less, rfl⟩

private theorem isSplitter_of_mem_connectives {w : Text × Operation} (h : w ∈ connectives) : IsSplitter w.1 := by
  obtain ⟨c, rfl⟩ := mem_connectives h
  exact .inl c.isValid_text

private theorem isSplitter_of_mem_comparisons {w : Text × Operation} (h : w ∈ comparisons) : IsSplitter w.1 := by
  obtain ⟨s, rfl⟩ := mem_comparisons h
  cases s with
  | equal => exact .inl Comparison.equal.isValid_token
  | greater => exact .inr (.inr rfl)
  | less => exact .inr (.inl rfl)

/-- A comparison does not split at a connective. -/
theorem splitAtFirst?_connectives_eq_none (h : AreTokens ks) (hwithin : ∀ k ∈ ks, k.IsWithin 1) :
    splitAtFirst? connectives (spaced ks) = none := by
  refine splitAtFirst?_eq_none h (fun w hw => isSplitter_of_mem_connectives hw) fun k hk w hw => ?_
  obtain ⟨c, rfl⟩ := mem_connectives hw
  exact (hwithin k hk).connective c (by cases c <;> decide)

/-- A predicate does not split at a comparison. -/
theorem splitAtFirst?_comparisons_eq_none (h : AreTokens ks) (hwithin : ∀ k ∈ ks, k.IsWithin 0) :
    splitAtFirst? comparisons (spaced ks) = none := by
  refine splitAtFirst?_eq_none h (fun w hw => isSplitter_of_mem_comparisons hw) fun k hk w hw => ?_
  obtain ⟨s, rfl⟩ := mem_comparisons hw
  exact (hwithin k hk).comparison rfl s

theorem splitAtFirst?_connective (w : Connective) {m n : Nat} (h : AreTokens ks) (h' : AreTokens ks')
    (hm : m < w.level) (hn : n ≤ w.level) (hwithin : ∀ k ∈ ks, k.IsWithin m) (hwithin' : ∀ k ∈ ks', k.IsWithin n) :
    splitAtFirst? connectives (spaced ks ++ ' ' :: (w.text ++ ' ' :: spaced ks')) =
      some (w.operation, spaced ks, spaced ks') := by
  have hleft : ∀ k ∈ ks, k.text ≠ w.text := fun k hk => (hwithin k hk).connective w hm
  have hall : ∀ k ∈ ks ++ .word w.text :: ks', k.IsWithin w.level :=
    List.forall_mem_append.2 ⟨fun k hk => (hwithin k hk).mono (Nat.le_of_lt hm),
      List.forall_mem_cons.2 ⟨.of_connective w, fun k hk => (hwithin' k hk).mono hn⟩⟩
  have hwords : ∀ v ∈ connectives, IsSplitter v.1 := fun v hv => isSplitter_of_mem_connectives hv
  have hvalid := w.isValid_text
  cases w with
  | either =>
    refine @splitAtFirst?_eq_some [] _ ks ks' (.word _) _ h hvalid h' hwords (fun k hk v hv => ?_) hleft
    exact absurd hv List.not_mem_nil
  | both =>
    refine @splitAtFirst?_eq_some [(Connective.either.text, .either)] [] ks ks' (.word _) _ h hvalid h' hwords
      (fun k hk v hv => ?_) hleft
    obtain rfl := List.mem_singleton.1 hv
    exact (hall k hk).connective .either (by decide)

theorem splitAtFirst?_comparison (s : Comparison) (h : AreTokens ks) (h' : AreTokens ks')
    (hwithin : ∀ k ∈ ks, k.IsWithin 0) (hwithin' : ∀ k ∈ ks', k.IsWithin 0) :
    splitAtFirst? comparisons (spaced ks ++ ' ' :: (s.text ++ ' ' :: spaced ks')) =
      some (s.operation, spaced ks, spaced ks') := by
  have hleft : ∀ k ∈ ks, k.text ≠ s.text := fun k hk => (hwithin k hk).comparison rfl s
  have hall : ∀ s' : Comparison, s.text ≠ s'.text → ∀ k ∈ ks ++ s.token :: ks', k.text ≠ s'.text := by
    intro s' hs
    refine List.forall_mem_append.2 ⟨fun k hk => (hwithin k hk).comparison rfl s', List.forall_mem_cons.2 ⟨?_, ?_⟩⟩
    · rwa [s.text_token]
    · exact fun k hk => (hwithin' k hk).comparison rfl s'
  have hwords : ∀ v ∈ comparisons, IsSplitter v.1 := fun v hv => isSplitter_of_mem_comparisons hv
  have hvalid := s.isValid_token
  cases s with
  | equal =>
    refine @splitAtFirst?_eq_some [] _ ks ks' (.word _) _ h hvalid h' hwords (fun k hk v hv => ?_) hleft
    exact absurd hv List.not_mem_nil
  | greater =>
    refine @splitAtFirst?_eq_some [(Comparison.equal.text, .equals)] _ ks ks' (.sign _) _ h hvalid h' hwords
      (fun k hk v hv => ?_) hleft
    obtain rfl := List.mem_singleton.1 hv
    exact hall .equal (by decide) k hk
  | less =>
    refine @splitAtFirst?_eq_some [(Comparison.equal.text, .equals), (Comparison.greater.text, .greater)] [] ks ks'
      (.sign _) _ h hvalid h' hwords (fun k hk => List.forall_mem_cons.2 ⟨?_, List.forall_mem_singleton.2 ?_⟩) hleft
    · exact hall .equal (by decide) k hk
    · exact hall .greater (by decide) k hk

/-! ### One level -/

theorem conditionStep_connective (w : Connective) {m n : Nat} (h : AreTokens ks) (h' : AreTokens ks')
    (hm : m < w.level) (hn : n ≤ w.level) (hwithin : ∀ k ∈ ks, k.IsWithin m) (hwithin' : ∀ k ∈ ks', k.IsWithin n) :
    r.conditionStep value condition (spaced ks ++ ' ' :: (w.text ++ ' ' :: spaced ks')) =
      .apply w.operation (.input "OPERAND1" (.nested .boolean (condition (spaced ks)))
        (.input "OPERAND2" (.nested .boolean (condition (spaced ks'))) .done)) := by
  have hbare : bareCondition (spaced ks ++ ' ' :: (w.text ++ ' ' :: spaced ks')) =
      spaced ks ++ ' ' :: (w.text ++ ' ' :: spaced ks') := @peel_append _ (.word w.text) _ _ h w.isValid_text h'
  have hsplit := splitAtFirst?_connective w h h' hm hn hwithin hwithin'
  unfold conditionStep
  dsimp only
  rw [hbare, if_neg (List.append_ne_nil_of_left_ne_nil h.isTrimmed.ne_nil _), hsplit]

theorem conditionStep_comparison (s : Comparison) (h : AreTokens ks) (h' : AreTokens ks')
    (hwithin : ∀ k ∈ ks, k.IsWithin 0) (hwithin' : ∀ k ∈ ks', k.IsWithin 0) :
    r.conditionStep value condition (spaced ks ++ ' ' :: (s.text ++ ' ' :: spaced ks')) =
      .apply s.operation (.input "OPERAND1" (value (operandKind (spaced ks)) (spaced ks))
        (.input "OPERAND2" (value (operandKind (spaced ks')) (spaced ks')) .done)) := by
  have hbare : bareCondition (spaced ks ++ ' ' :: (s.token.text ++ ' ' :: spaced ks')) =
      spaced ks ++ ' ' :: (s.token.text ++ ' ' :: spaced ks') := peel_append h s.isValid_token h'
  have hall : ∀ k ∈ ks ++ s.token :: ks', k.IsWithin 1 :=
    List.forall_mem_append.2 ⟨fun k hk => (hwithin k hk).mono (Nat.zero_le 1),
      List.forall_mem_cons.2 ⟨.of_comparison s, fun k hk => (hwithin' k hk).mono (Nat.zero_le 1)⟩⟩
  have hnone := splitAtFirst?_connectives_eq_none (h.append s.isValid_token h') hall
  rw [h.spaced_append h', s.text_token] at hnone
  rw [s.text_token] at hbare
  have hsplit := splitAtFirst?_comparison s h h' hwithin hwithin'
  unfold conditionStep
  dsimp only
  rw [hbare, if_neg (List.append_ne_nil_of_left_ne_nil h.isTrimmed.ne_nil _), hnone]
  dsimp only
  rw [hsplit]

/-- What has no word to split at is read as a predicate. -/
theorem conditionStep_predicate {op : Operation} {values : Bindings} (h : AreTokens ks)
    (hwithin : ∀ k ∈ ks, k.IsWithin 0) (htext : t = spaced ks) {c : Char} {rest : Text} (hfirst : t = c :: rest)
    (hc : Bracket.ofOpener? c = none) (hpredicate : predicate? t = some (op, values)) :
    r.conditionStep value condition t = .noted (.condition t op.opcode) (r.applied value condition op values) := by
  have htrimmed : t.IsTrimmed := htext ▸ h.isTrimmed
  have hbare : t.bareCondition = t := by
    refine peel_of_first htrimmed fun d hd => ?_
    rw [hfirst] at hd
    rwa [← Option.some.inj hd]
  have hconnectives : splitAtFirst? connectives t = none := by
    rw [htext]
    exact splitAtFirst?_connectives_eq_none h fun k hk => (hwithin k hk).mono (Nat.zero_le 1)
  have hcomparisons : splitAtFirst? comparisons t = none := by
    rw [htext]
    exact splitAtFirst?_comparisons_eq_none h hwithin
  unfold conditionStep
  dsimp only
  rw [hbare, if_neg htrimmed.ne_nil, hconnectives]
  dsimp only
  rw [hcomparisons]
  dsimp only
  rw [hpredicate]

/-- A word that is no known name is kept as menus keep their entries. -/
theorem value_menu {menu : Menu} {name : Text} (hname : IsName name)
    (hlookup : r.names.lookup (String.ofList name) = none) {levels : Nat} (hlevels : 0 < levels) :
    r.value levels (.menu menu) name = .shadow menu.shadow (menu.stored (String.ofList name)) := by
  obtain ⟨levels, rfl⟩ := Nat.exists_eq_add_one.2 hlevels
  have hbare : bare name = name := peel_word hname.isValid
  have hmarker : dropMarker name = name := by
    refine if_neg fun hsuffix => ?_
    have hblank : ' ' ∈ name := (List.isSuffixOf_iff_suffix.1 hsuffix).mem List.mem_cons_self
    exact absurd (hname.2 _ hblank) (by decide)
  show r.valueStep _ _ _ _ = _
  unfold valueStep
  dsimp only
  rw [hbare, hmarker, hlookup]

end Reader

namespace Condition

variable {r : Reader} {c : Condition} {level : Nat} {t : Text}

/-- A key keeps its name, unless it is one of those that menus store under another one. -/
private theorem stored_key {key : Text} (hname : IsName key) (hrenamed : key ∉ renamed) :
    Menu.key.stored (String.ofList key) = String.ofList key := by
  have hletters : ∀ entry ∈ Menu.storedNames.map Prod.fst,
      entry.toList.all (isLetter ·) = true → entry.toList ∈ renamed := by decide
  refine (Menu.stored_eq_self_iff (by decide) _).2 fun hmem => hrenamed ?_
  have hkey := hletters _ hmem (by simpa using hname.2)
  rwa [String.toList_ofList] at hkey

/-- Reading a written condition gives its tree back, if there are levels enough. -/
theorem Written.means (h : c.Written level t) (hc : c.IsOver r.names) (htable : r.names.IsSimple reserved)
    {levels : Nat} (hlevels : c.height < levels) : c.Means r.names (r.condition levels t) := by
  have hmod : Sign.modulo.text ∈ reserved := List.mem_cons_self
  induction h generalizing levels with
  | mouseDown =>
    obtain ⟨levels, rfl⟩ := Nat.exists_eq_add_one.2 hlevels
    obtain ⟨ks, hks, htext, hwithin⟩ := mouseDown.exists_tokens hc
    show Means _ _ (r.conditionStep _ _ _)
    rw [Reader.conditionStep_predicate hks hwithin htext rfl rfl Reader.predicate?_mouseDown]
    exact .mouseDown
  | @keyPressed key =>
    obtain ⟨levels, rfl⟩ := Nat.exists_eq_add_one.2 (Nat.zero_lt_of_lt hlevels)
    obtain ⟨ks, hks, htext, hwithin⟩ := keyPressed.exists_tokens hc
    show Means _ _ (r.conditionStep _ _ _)
    rw [Reader.conditionStep_predicate hks hwithin htext rfl rfl (Reader.predicate?_keyPressed hc.1)]
    show Means _ _ (.noted _ (.apply .keyPressed (.input "KEY_OPTION" (r.value levels (.menu .key) key) .done)))
    rw [Reader.value_menu hc.1 hc.2.2 (Nat.lt_of_succ_lt_succ hlevels), stored_key hc.1 hc.2.1]
    exact .keyPressed
  | @negation level c t inside ih =>
    obtain ⟨levels, rfl⟩ := Nat.exists_eq_add_one.2 (Nat.zero_lt_of_lt hlevels)
    obtain ⟨ks, hks, htext, hwithin⟩ := (negation inside).exists_tokens hc
    obtain ⟨ks', hks', htext', -⟩ := inside.exists_tokens hc
    have hpredicate := Reader.predicate?_negation (htext' ▸ hks'.isTrimmed) (inside.not_mem_newline hc)
    show Means _ _ (r.conditionStep _ _ _)
    rw [Reader.conditionStep_predicate hks hwithin htext rfl rfl hpredicate]
    exact .negation (ih hc (Nat.lt_of_succ_lt_succ hlevels))
  | @bracketed level c t inside ih =>
    obtain ⟨ks, hks, rfl, -⟩ := inside.exists_tokens hc
    have hpeel : bareCondition ('<' :: (spaced ks ++ ['>'])) = bareCondition (spaced ks) :=
      @peel_group _ .angle _ (by decide) hks.isClosed
    rw [Reader.condition_congr hpeel]
    exact ih hc hlevels
  | @comparison s m n left right tl tr leftSide rightSide =>
    obtain ⟨levels, rfl⟩ := Nat.exists_eq_add_one.2 (Nat.zero_lt_of_lt hlevels)
    rw [height] at hlevels
    have hleft := @Formula.Written.value_operandKind_eq r _ _ _ _ leftSide hc.1 htable hmod levels (by omega)
    have hright := @Formula.Written.value_operandKind_eq r _ _ _ _ rightSide hc.2 htable hmod levels (by omega)
    obtain ⟨ks, hks, rfl, hparts⟩ := leftSide.exists_tokens hc.1
    obtain ⟨ks', hks', rfl, hparts'⟩ := rightSide.exists_tokens hc.2
    show Means _ _ (r.conditionStep _ _ _)
    rw [Reader.conditionStep_comparison s hks hks' (fun k hk => .of_isPart (hparts k hk) 0)
      (fun k hk => .of_isPart (hparts' k hk) 0), hleft, hright]
    exact .comparison
  | @connective w m n left right tl tr leftSide leftLevel rightSide rightLevel ihl ihr =>
    obtain ⟨levels, rfl⟩ := Nat.exists_eq_add_one.2 (Nat.zero_lt_of_lt hlevels)
    rw [height] at hlevels
    obtain ⟨ks, hks, rfl, hwithin⟩ := leftSide.exists_tokens hc.1
    obtain ⟨ks', hks', rfl, hwithin'⟩ := rightSide.exists_tokens hc.2
    show Means _ _ (r.conditionStep _ _ _)
    rw [Reader.conditionStep_connective w hks hks' leftLevel rightLevel hwithin hwithin']
    exact .connective (ihl hc.1 (by omega)) (ihr hc.2 (by omega))

/-! ### Building -/

variable {table : NameTable} {term : Term}

theorem Means.isComplete (h : c.Means table term) : term.isComplete = true := by
  induction h with
  | mouseDown => rfl
  | keyPressed => rfl
  | negation _ ih =>
    have hfilled : Operation.negation.isFilled ["OPERAND"] [] = true := by decide
    rw [Term.isComplete, Term.isComplete, Arguments.isComplete, Argument.isComplete, ih]
    exact hfilled
  | @comparison s left right =>
    have hfilled : s.operation.isFilled ["OPERAND1", "OPERAND2"] [] = true := by cases s <;> decide
    rw [Term.isComplete, Arguments.isComplete, Arguments.isComplete, left.isComplete_argument,
      right.isComplete_argument]
    exact hfilled
  | @connective w _ _ _ _ _ _ ihl ihr =>
    have hfilled : w.operation.isFilled ["OPERAND1", "OPERAND2"] [] = true := by cases w <;> decide
    rw [Term.isComplete, Arguments.isComplete, Arguments.isComplete, Argument.isComplete, Argument.isComplete, ihl, ihr]
    exact hfilled

theorem Means.size_eq (h : c.Means table term) (hc : c.IsOver table) : term.size = c.size := by
  induction h with
  | mouseDown => rfl
  | keyPressed => rfl
  | negation _ ih =>
    rw [Term.size, Term.size, Arguments.size, Argument.size, ih hc]
    rfl
  | comparison =>
    rw [Term.size, Arguments.size, Arguments.size, Formula.size_argument hc.1, Formula.size_argument hc.2]
    rfl
  | connective _ _ ihl ihr =>
    rw [Term.size, Arguments.size, Arguments.size, Argument.size, Argument.size, ihl hc.1, ihr hc.2]
    rfl

/-- An arena with the blocks of a term that a condition means shows the condition. -/
theorem Means.shownBy (h : c.Means table term) (hc : c.IsOver table) {arena : Arena} {ids : IdSource} {n : Nat}
    {owner : Option BlockId} (harena : ∀ b ∈ term.blocks ids n owner, arena.get? b.id = some b) :
    c.ShownBy table arena owner (ids n) := by
  induction h generalizing n owner with
  | mouseDown => exact harena _ List.mem_cons_self
  | keyPressed =>
    rw [Term.blocks] at harena
    obtain ⟨hmenu, hroot⟩ := Term.found_of_single harena
    exact ⟨ids (n + 1), hroot _ rfl, hmenu _ List.mem_cons_self⟩
  | negation _ ih =>
    rw [Term.blocks] at harena
    obtain ⟨hoperand, hroot⟩ := Term.found_of_single harena
    exact ⟨ids (n + 1), hroot _ rfl, ih hc hoperand⟩
  | @comparison s left right =>
    obtain ⟨hleft, hright, hroot⟩ := Term.found_of_pair harena
    obtain ⟨leftInput, hleftInput, hshownLeft⟩ := Formula.exists_shownBy hc.1 "OPERAND1" hleft
    obtain ⟨rightInput, hrightInput, hshownRight⟩ := Formula.exists_shownBy hc.2 "OPERAND2" hright
    refine ⟨leftInput, rightInput, ?_, hshownLeft, hshownRight⟩
    refine (hroot leftInput rightInput hleftInput hrightInput).trans ?_
    cases s <;> rfl
  | @connective w left right leftTerm rightTerm _ _ ihl ihr =>
    obtain ⟨hleft, hright, hroot⟩ := Term.found_of_pair harena
    refine ⟨ids (n + 1), ids (n + 1 + leftTerm.size), ?_, ihl hc.1 hleft, ihr hc.2 hright⟩
    refine (hroot _ _ rfl rfl).trans ?_
    cases w <;> rfl

/-- Reading a written condition and building it adds the blocks of its tree and no others.  The nesting may reach the
limit, and the ids that are drawn must be new. -/
theorem shownBy_of_conditionAt (hwritten : c.Written level t) (hc : c.IsOver r.names)
    (htable : r.names.IsSimple reserved) {depth : Int} (hdepth : depth + c.height ≤ r.limit) (ids : IdSource)
    (owner : Option BlockId) {b : Builder} (hb : b.Sound) (hids : (b.issued ++ ids.span b.drawn c.size).Nodup) :
    ∃ b' blocks, (r.conditionAt depth t).emit ids owner b = .ok (ids b.drawn) b' ∧
      Builder.Grows ids c.size blocks b b' ∧ blocks.length = c.size ∧
        c.ShownBy r.names b'.arena owner (ids b.drawn) := by
  have hlevels : c.height < r.levelsAt depth := by
    unfold Reader.levelsAt
    omega
  have hmeans : c.Means r.names (r.conditionAt depth t) := hwritten.means hc htable hlevels
  have hsize := hmeans.size_eq hc
  rw [← hsize] at hids
  obtain ⟨b', hemit, hgrows, hget⟩ := Term.exists_emit ids owner hmeans.isComplete hb hids
  have hlength := (r.conditionAt depth t).length_blocks ids b.drawn owner
  rw [hsize] at hlength
  rw [hsize] at hgrows
  exact ⟨b', _, hemit, hgrows, hlength, hmeans.shownBy hc hget⟩

/-- A disjunction with brackets that are not needed on the left, and a conjunction in the negation on the right. -/
theorem shownBy_of_conditionAt_either : ∃ b' blocks,
    (Reader.conditionAt ⟨⟨[⟨"x", "x-id", .globalVariable⟩]⟩, 4⟩ 0
        "<mouse down?> or not <x > 5 and key (space v) pressed?>".toList).emit IdSource.default none
        (Builder.empty 0 #[]) = .ok "block_1" b' ∧
      Builder.Grows IdSource.default 8 blocks (Builder.empty 0 #[]) b' ∧ blocks.length = 8 ∧
        (connective .either mouseDown (negation (connective .both
          (comparison .greater (.name ['x']) (.number ['5'])) (keyPressed "space".toList)))).ShownBy
          ⟨[⟨"x", "x-id", .globalVariable⟩]⟩ b'.arena none "block_1" := by
  have hname : IsName ['x'] := ⟨by decide, forall_of_all (by decide)⟩
  have hcomparison : Written 1 (comparison .greater (.name ['x']) (.number ['5'])) "x > 5".toList :=
    @Written.comparison .greater _ _ _ _ _ _ .name .number
  have hboth : Written 2 (connective .both (comparison .greater (.name ['x']) (.number ['5']))
      (keyPressed "space".toList)) "x > 5 and key (space v) pressed?".toList :=
    @Written.connective .both _ _ _ _ _ _ hcomparison (by decide) .keyPressed (by decide)
  have heither : Written 3 (connective .either mouseDown (negation (connective .both
      (comparison .greater (.name ['x']) (.number ['5'])) (keyPressed "space".toList))))
      "<mouse down?> or not <x > 5 and key (space v) pressed?>".toList :=
    @Written.connective .either _ _ _ _ _ _ (.bracketed .mouseDown) (by decide) (.negation hboth) (by decide)
  refine shownBy_of_conditionAt heither ?_ ?_ (by decide) IdSource.default none (Builder.sound_empty 0 #[])
    (by decide +kernel)
  · refine ⟨trivial, ⟨⟨hname, by decide, by decide +kernel⟩, ?_⟩,
      ⟨by decide, forall_of_all (by decide)⟩, by decide, by decide +kernel⟩
    exact ⟨[], ['5'], [], rfl, .inl rfl, ⟨by decide, forall_of_all (by decide)⟩, .inl rfl⟩
  · intro entry hentry
    obtain rfl := List.mem_singleton.1 hentry
    exact .inr ⟨hname, by decide⟩

/-- The blocks of a condition show a single key. -/
private theorem eq_of_shownBy_keyPressed {table : NameTable} {arena : Arena} {owner : Option BlockId} {id : BlockId}
    {key key' : Text} (h : (keyPressed key).ShownBy table arena owner id)
    (h' : (keyPressed key').ShownBy table arena owner id) : key = key' := by
  obtain ⟨menu, hroot, hmenu⟩ := h
  obtain ⟨menu', hroot', hmenu'⟩ := h'
  rw [hroot] at hroot'
  obtain rfl : menu = menu' := by simpa using hroot'
  rw [hmenu] at hmenu'
  exact String.ofList_injective (by simpa using hmenu')

/-- A key `edge` is stored under the name that the editor has for the edge of the stage, so the blocks show another
key. -/
theorem not_shownBy_keyPressed_edge :
    Written 0 (keyPressed "edge".toList) "key (edge v) pressed?".toList ∧ IsName "edge".toList ∧
      NameTable.default.lookup "edge" = none ∧ NameTable.default.IsSimple reserved ∧
      ∃ b', (Reader.conditionAt ⟨.default, Reader.defaultLimit⟩ 0 "key (edge v) pressed?".toList).emit
          IdSource.default none (Builder.empty 0 #[]) = .ok "block_1" b' ∧
        (keyPressed "_edge_".toList).ShownBy .default b'.arena none "block_1" ∧
        ¬(keyPressed "edge".toList).ShownBy .default b'.arena none "block_1" := by
  refine ⟨.keyPressed, ⟨by decide, forall_of_all (by decide)⟩, by decide +kernel, fun _ => .inl, ?_⟩
  have hrun : (match (Reader.conditionAt ⟨.default, Reader.defaultLimit⟩ 0 "key (edge v) pressed?".toList).emit
        IdSource.default none (Builder.empty 0 #[]) with
      | .ok id b' => some (id, b'.arena)
      | .error _ _ => none) = some ("block_1", Arena.ofBlocks
        [⟨"block_2", "sensing_keyoptions", .reporter, [], [⟨"KEY_OPTION", "_edge_", none⟩], some "block_1", none, true,
          by simp⟩,
        ⟨"block_1", "sensing_keypressed", .boolean, [.block "KEY_OPTION" .menu "block_2"], [], none, none, false,
          by simp⟩]) := by
    decide +kernel
  split at hrun
  case h_2 => cases hrun
  case h_1 id b' hemit =>
    obtain ⟨rfl, harena⟩ := Prod.mk.inj (Option.some.inj hrun)
    have hshown : (keyPressed "_edge_".toList).ShownBy .default b'.arena none "block_1" := by
      rw [harena]
      exact ⟨"block_2", rfl, rfl⟩
    refine ⟨b', hemit, hshown, fun hedge => ?_⟩
    exact absurd (eq_of_shownBy_keyPressed hedge hshown) (by decide)

end Condition

end BlockScript
