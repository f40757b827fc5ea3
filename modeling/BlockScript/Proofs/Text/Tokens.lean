import BlockScript.Proofs.Text.Splitting

/-!
# Texts of tokens

A text that is written with single blanks between its parts is a list of tokens: words without brackets, lone angle
signs, which are no brackets then, and groups in brackets.  The depths of such a text follow from those of its tokens:
a word is flat, and only the inside of a group lies deeper (`Token.exists_depths`).

* `AreTokens.isClosed`: in a text of tokens, every group that is opened is closed;
* `peel_spaced`, `peel_word`, `peel_group`: brackets are removed around the inside of a single group, and nowhere else.
-/

namespace BlockScript

namespace Text

/-! ### Trimmed texts -/

/-- A text that neither begins nor ends with a blank. -/
structure IsTrimmed (t : Text) : Prop where
  first : ∃ c rest, t = c :: rest ∧ isBlank c = false
  last : ∃ front c, t = front ++ [c] ∧ isBlank c = false

theorem IsTrimmed.ne_nil {t : Text} (h : t.IsTrimmed) : t ≠ [] := by
  obtain ⟨c, rest, rfl, -⟩ := h.first
  exact List.cons_ne_nil _ _

theorem trim_cons_blank (t : Text) : trim (' ' :: t) = trim t :=
  rfl

theorem trimRight_append_blank (t : Text) : trimRight (t ++ [' ']) = trimRight t := by
  rw [trimRight, List.reverse_append, List.reverse_singleton, List.singleton_append,
    List.dropWhile_cons_of_pos (by decide), trimRight]

theorem trim_eq_self {t : Text} (h : t.IsTrimmed) : trim t = t := by
  obtain ⟨c, rest, hfirst, hc⟩ := h.first
  obtain ⟨front, d, hlast, hd⟩ := h.last
  have hleft : trimLeft t = t := by
    rw [hfirst]
    exact List.dropWhile_cons_of_neg (by simp [hc])
  rw [trim, hleft, hlast, trimRight, List.reverse_append, List.reverse_singleton, List.singleton_append,
    List.dropWhile_cons_of_neg (by simp [hd]), List.reverse_cons, List.reverse_reverse]

theorem trim_append_blank {t : Text} (h : t.IsTrimmed) : trim (t ++ [' ']) = t := by
  obtain ⟨c, rest, rfl, hc⟩ := h.first
  have hleft : trimLeft (c :: rest ++ [' ']) = c :: rest ++ [' '] :=
    List.dropWhile_cons_of_neg (by simp [hc])
  have hself := trim_eq_self h
  rw [trim, show trimLeft (c :: rest) = c :: rest from List.dropWhile_cons_of_neg (by simp [hc])] at hself
  rw [trim, hleft, trimRight_append_blank, hself]

/-- What follows and what precedes a trimmed part makes a trimmed text. -/
theorem IsTrimmed.append {s t : Text} (hs : s.IsTrimmed) (ht : t.IsTrimmed) (middle : Text) :
    IsTrimmed (s ++ (middle ++ t)) := by
  obtain ⟨c, rest, rfl, hc⟩ := hs.first
  obtain ⟨front, d, rfl, hd⟩ := ht.last
  exact ⟨⟨c, _, rfl, hc⟩, ⟨c :: rest ++ (middle ++ front), d, by simp, hd⟩⟩

/-! ### Depths -/

/-- A character that is neither a blank nor a bracket. -/
structure IsPlain (c : Char) : Prop where
  notBlank : isBlank c = false
  opener : Bracket.ofOpener? c = none
  closer : Bracket.ofCloser? c = none

instance : DecidablePred IsPlain := fun c =>
  decidable_of_iff (isBlank c = false ∧ Bracket.ofOpener? c = none ∧ Bracket.ofCloser? c = none)
    ⟨fun h => ⟨h.1, h.2.1, h.2.2⟩, fun h => ⟨h.notBlank, h.opener, h.closer⟩⟩

variable {groups : List Bracket} {previous : Option Char} {c : Char} {rest : Text}

private theorem depths_of_stay (hopening : Bracket.opening c rest.head? = none)
    (hclosing : Bracket.closing previous c = none) :
    depthsWithin groups groups.length previous (c :: rest) =
      groups.length :: depthsWithin groups groups.length (some c) rest := by
  have hstay : turned groups previous c rest.head? = groups :=
    turned_of_stay hopening fun b _ hb => nomatch hclosing.symm.trans hb
  rw [depthsWithin_cons, hstay, Nat.min_self]

private theorem depths_cons (hopener : Bracket.ofOpener? c = none) (hcloser : Bracket.ofCloser? c = none) :
    depthsWithin groups groups.length previous (c :: rest) =
      groups.length :: depthsWithin groups groups.length (some c) rest := by
  apply depths_of_stay
  · rw [Bracket.opening, hopener]
    rfl
  · rw [Bracket.closing, hcloser]
    rfl

/-- A blank is no bracket. -/
theorem depths_blank : depthsWithin groups groups.length previous (' ' :: rest) =
    groups.length :: depthsWithin groups groups.length (some ' ') rest :=
  depths_cons rfl rfl

/-- A text that closes the groups that it opens, and no others. -/
structure IsClosed (t : Text) : Prop extends IsTrimmed t where
  exists_depths : ∀ (groups : List Bracket) (previous : Option Char) (rest : Text), ∃ ds c, isBlank c = false ∧
    ds.length = t.length ∧ (∀ d ∈ ds, groups.length ≤ d) ∧
      depthsWithin groups groups.length previous (t ++ rest) =
        ds ++ depthsWithin groups groups.length (some c) rest

end Text

/-! ### Tokens -/

/-- A part of a text that is written with single blanks between its parts. -/
inductive Token where
  | word (t : Text)
  /-- An angle sign that stands alone. -/
  | sign (c : Char)
  | group (b : Bracket) (inside : Text)

namespace Token

open Text

/-- The token as it is written. -/
def text : Token → Text
  | word t => t
  | sign c => [c]
  | group b inside => b.opener :: (inside ++ [b.closer])

/-- Whether the token is an angle sign that stands alone. -/
def isSign : Token → Bool
  | sign _ => true
  | _ => false

/-- The token is what it should be. -/
def IsValid : Token → Prop
  | word t => t ≠ [] ∧ ∀ c ∈ t, IsPlain c
  | sign c => c = '<' ∨ c = '>'
  | group _ inside => inside.IsClosed

/-- The depths of the characters of a token in `n` groups. -/
inductive HasDepths (n : Nat) : Token → List Nat → Prop where
  | word {t : Text} : HasDepths n (word t) (List.replicate t.length n)
  | sign {c : Char} : HasDepths n (sign c) [n]
  | group {b : Bracket} {inside : Text} {ds : List Nat} (length : ds.length = inside.length)
      (deeper : ∀ d ∈ ds, n < d) : HasDepths n (group b inside) (n :: (ds ++ [n]))

variable {k : Token}

theorem HasDepths.length_eq {n : Nat} {ds : List Nat} (h : k.HasDepths n ds) : ds.length = k.text.length := by
  cases h with
  | word => exact List.length_replicate
  | sign => rfl
  | group hlength => simp [text, hlength]

theorem HasDepths.le {n : Nat} {ds : List Nat} (h : k.HasDepths n ds) : ∀ d ∈ ds, n ≤ d := by
  cases h with
  | word => exact fun d hd => Nat.le_of_eq (List.eq_of_mem_replicate hd).symm
  | sign => simp
  | group _ hdeeper =>
    intro d hd
    simp only [List.mem_cons, List.mem_append, List.not_mem_nil, or_false] at hd
    rcases hd with rfl | hd | rfl
    · exact Nat.le_refl _
    · exact Nat.le_of_lt (hdeeper d hd)
    · exact Nat.le_refl _

theorem isTrimmed_text (h : k.IsValid) : k.text.IsTrimmed := by
  cases k with
  | word t =>
    obtain ⟨hne, hplain⟩ := h
    refine ⟨?_, t.dropLast, t.getLast hne, (List.dropLast_append_getLast hne).symm,
      (hplain _ (List.getLast_mem hne)).notBlank⟩
    obtain ⟨c, rest, rfl⟩ := List.exists_cons_of_ne_nil hne
    exact ⟨c, rest, rfl, (hplain c List.mem_cons_self).notBlank⟩
  | sign c =>
    have hc : isBlank c = false := by rcases h with rfl | rfl <;> decide
    exact ⟨⟨c, [], rfl, hc⟩, ⟨[], c, rfl, hc⟩⟩
  | group b inside =>
    obtain ⟨hopener, hcloser⟩ := b.not_isBlank
    exact ⟨⟨_, _, rfl, hopener⟩, ⟨b.opener :: inside, _, rfl, hcloser⟩⟩

variable {groups : List Bracket} {previous : Option Char} {rest : Text}

private theorem exists_depths_word {t : Text} (hne : t ≠ []) (hplain : ∀ c ∈ t, IsPlain c) :
    ∃ c, isBlank c = false ∧ depthsWithin groups groups.length previous (t ++ rest) =
      List.replicate t.length groups.length ++ depthsWithin groups groups.length (some c) rest := by
  induction t generalizing previous with
  | nil => exact absurd rfl hne
  | cons c t ih =>
    obtain ⟨hc, ht⟩ := List.forall_mem_cons.1 hplain
    rw [List.cons_append, depths_cons hc.opener hc.closer]
    cases t with
    | nil => exact ⟨c, hc.notBlank, rfl⟩
    | cons d t =>
      obtain ⟨e, he, hdepths⟩ := @ih (some c) (List.cons_ne_nil _ _) ht
      exact ⟨e, he, by rw [hdepths]; rfl⟩

private theorem exists_depths_group {b : Bracket} {inside : Text} (h : inside.IsClosed) :
    ∃ ds, ds.length = inside.length ∧ (∀ d ∈ ds, groups.length < d) ∧
      depthsWithin groups groups.length previous (b.opener :: (inside ++ b.closer :: rest)) =
        groups.length :: (ds ++ groups.length :: depthsWithin groups groups.length (some b.closer) rest) := by
  obtain ⟨ds, c, hc, hlength, hdeeper, hdepths⟩ := h.exists_depths (b :: groups) (some b.opener) (b.closer :: rest)
  refine ⟨ds, hlength, hdeeper, ?_⟩
  obtain ⟨d, tail, hinside, hd⟩ := h.first
  have hopening : Bracket.opening b.opener (inside ++ b.closer :: rest).head? = some b := by
    rw [hinside]
    cases b <;> simp [Bracket.opening, Bracket.ofOpener?, Bracket.opener, Bracket.holdsBeside, hd]
  have hclosing : Bracket.closing (some c) b.closer = some b := by
    cases b <;> simp [Bracket.closing, Bracket.ofCloser?, Bracket.closer, Bracket.holdsBeside, hc]
  have hclosed : Bracket.opening b.closer rest.head? = none := by cases b <;> rfl
  rw [depthsWithin_cons, turned_of_opening hopening, hdepths, depthsWithin_cons, turned_of_closing hclosed hclosing]
  simp

/-- The depths of a token; a sign must have a blank on both sides. -/
theorem exists_depths (h : k.IsValid) (hprevious : k.isSign = true → previous = some ' ')
    (hrest : k.isSign = true → rest.head? = some ' ') :
    ∃ ds c, isBlank c = false ∧ k.HasDepths groups.length ds ∧
      depthsWithin groups groups.length previous (k.text ++ rest) =
        ds ++ depthsWithin groups groups.length (some c) rest := by
  cases k with
  | word t =>
    obtain ⟨c, hc, hdepths⟩ := exists_depths_word h.1 h.2
    exact ⟨_, c, hc, .word, hdepths⟩
  | sign c =>
    have hsign : isBlank c = false ∧ Bracket.opening c rest.head? = none ∧ Bracket.closing previous c = none := by
      rw [hprevious rfl, hrest rfl]
      rcases h with rfl | rfl <;> decide
    exact ⟨_, c, hsign.1, .sign, depths_of_stay hsign.2.1 hsign.2.2⟩
  | group b inside =>
    obtain ⟨ds, hlength, hdeeper, hdepths⟩ := exists_depths_group h
    refine ⟨_, b.closer, b.not_isBlank.2, .group hlength hdeeper, ?_⟩
    simpa [text] using hdepths

end Token

namespace Text

/-- The text of some tokens with single blanks between them. -/
def spaced : List Token → Text
  | [] => []
  | [k] => k.text
  | k :: ks => k.text ++ ' ' :: spaced ks

/-- Tokens at the end of a text: a sign is not the last of them. -/
structure AreTrailing (ks : List Token) : Prop where
  valid : ∀ k ∈ ks, k.IsValid
  ne_nil : ks ≠ []
  last : ∀ k ∈ ks.getLast?, k.isSign = false

/-- Tokens that make a text: signs stand between two others. -/
structure AreTokens (ks : List Token) : Prop extends AreTrailing ks where
  first : ∀ k ∈ ks.head?, k.isSign = false

theorem spaced_cons {k : Token} {ks : List Token} (h : ks ≠ []) : spaced (k :: ks) = k.text ++ ' ' :: spaced ks := by
  cases ks with
  | nil => exact absurd rfl h
  | cons => rfl

theorem spaced_append {ks ks' : List Token} (h : ks ≠ []) (h' : ks' ≠ []) :
    spaced (ks ++ ks') = spaced ks ++ ' ' :: spaced ks' := by
  induction ks with
  | nil => exact absurd rfl h
  | cons k ks ih =>
    by_cases hks : ks = []
    · subst hks
      exact spaced_cons h'
    · rw [List.cons_append, spaced_cons (by simp [hks]), ih hks, spaced_cons hks, List.append_assoc]
      rfl

namespace AreTrailing

variable {k : Token} {ks ks' : List Token}

theorem tail (h : AreTrailing (k :: ks)) (hne : ks ≠ []) : AreTrailing ks where
  valid k' hk' := h.valid k' (List.mem_cons_of_mem _ hk')
  ne_nil := hne
  last k' hk' := h.last k' (by rwa [List.getLast?_cons_of_ne_nil hne])

theorem isTrimmed (h : AreTrailing ks) : (spaced ks).IsTrimmed := by
  induction ks with
  | nil => exact absurd rfl h.ne_nil
  | cons k ks ih =>
    have hk := Token.isTrimmed_text (h.valid k List.mem_cons_self)
    by_cases hks : ks = []
    · subst hks
      exact hk
    · rw [spaced_cons hks]
      exact hk.append (ih (h.tail hks)) [' ']

/-- A text of tokens closes its groups; a sign in front must have a blank before it. -/
private theorem exists_depths (h : AreTrailing ks) {groups : List Bracket} {previous : Option Char} {rest : Text}
    (hprevious : ∀ k ∈ ks.head?, k.isSign = true → previous = some ' ') : ∃ ds c, isBlank c = false ∧
      ds.length = (spaced ks).length ∧ (∀ d ∈ ds, groups.length ≤ d) ∧
        depthsWithin groups groups.length previous (spaced ks ++ rest) =
          ds ++ depthsWithin groups groups.length (some c) rest := by
  induction ks generalizing previous with
  | nil => exact absurd rfl h.ne_nil
  | cons k ks ih =>
    by_cases hks : ks = []
    · subst hks
      have hsign : ¬k.isSign = true := by rw [h.last k rfl]; decide
      obtain ⟨ds, c, hc, hds, hdepths⟩ := @Token.exists_depths k groups previous rest (h.valid k List.mem_cons_self)
        (hprevious k rfl) fun hk => absurd hk hsign
      exact ⟨ds, c, hc, hds.length_eq, hds.le, hdepths⟩
    · obtain ⟨ds, c, -, hds, hdepths⟩ := @Token.exists_depths k groups previous (' ' :: (spaced ks ++ rest))
        (h.valid k List.mem_cons_self) (hprevious k rfl) fun _ => rfl
      obtain ⟨ds', c', hc', hlength, hle, hdepths'⟩ := @ih (h.tail hks) (some ' ') fun _ _ _ => rfl
      refine ⟨ds ++ groups.length :: ds', c', hc', ?_, ?_, ?_⟩
      · rw [spaced_cons hks, List.length_append, List.length_append, hds.length_eq, List.length_cons, List.length_cons,
          hlength]
      · intro d hd
        rcases List.mem_append.1 hd with hd | hd
        · exact hds.le d hd
        · rcases List.mem_cons.1 hd with rfl | hd
          · exact Nat.le_refl _
          · exact hle d hd
      · rw [spaced_cons hks, List.append_assoc, List.cons_append, hdepths, depths_blank, hdepths', List.append_assoc,
          List.cons_append]

end AreTrailing

namespace AreTokens

variable {k : Token} {ks ks' : List Token}

theorem not_isSign (h : AreTokens ks) : ∀ k ∈ ks.head?, ¬k.isSign = true :=
  fun k hk => by rw [h.first k hk]; decide

/-- A text of tokens closes the groups that it opens. -/
theorem isClosed (h : AreTokens ks) : (spaced ks).IsClosed where
  toIsTrimmed := h.isTrimmed
  exists_depths _ _ _ := h.exists_depths fun k hk hsign => absurd hsign (h.not_isSign k hk)

theorem singleton (h : k.IsValid) (hsign : k.isSign = false) : AreTokens [k] where
  valid := List.forall_mem_singleton.2 h
  ne_nil := List.cons_ne_nil _ _
  last k' hk' := by rwa [← Option.some.inj hk']
  first k' hk' := by rwa [← Option.some.inj hk']

theorem cons (h : k.IsValid) (hsign : k.isSign = false) (h' : AreTokens ks) : AreTokens (k :: ks) where
  valid := List.forall_mem_cons.2 ⟨h, h'.valid⟩
  ne_nil := List.cons_ne_nil _ _
  last k' hk' := h'.last k' (by rwa [List.getLast?_cons_of_ne_nil h'.ne_nil] at hk')
  first k' hk' := by rwa [← Option.some.inj hk']

/-- Texts of tokens with one more token between them. -/
theorem append (h : AreTokens ks) (hk : k.IsValid) (h' : AreTokens ks') : AreTokens (ks ++ k :: ks') where
  valid := List.forall_mem_append.2 ⟨h.valid, List.forall_mem_cons.2 ⟨hk, h'.valid⟩⟩
  ne_nil := by simp
  last k' hk' := h'.last k' (by rwa [List.getLast?_append_cons, List.getLast?_cons_of_ne_nil h'.ne_nil] at hk')
  first k' hk' := h.first k' (by rwa [List.head?_append_of_ne_nil _ h.ne_nil] at hk')

theorem spaced_append (h : AreTokens ks) (h' : AreTokens ks') :
    spaced (ks ++ k :: ks') = spaced ks ++ ' ' :: (k.text ++ ' ' :: spaced ks') := by
  rw [Text.spaced_append h.ne_nil (List.cons_ne_nil _ _), spaced_cons h'.ne_nil]

end AreTokens

/-! ### Brackets around a text -/

variable {kinds : List Bracket}

private theorem peel_of_not_isWrapped {t : Text} (ht : t.IsTrimmed) (h : isWrapped kinds t = false) :
    peel kinds t = t := by
  rw [peel, trim_eq_self ht, dif_neg (by rw [h]; decide)]

private theorem wraps_of_zero {d : Nat} {ds ds' : List Nat} (h : ds' ≠ []) : wraps (d :: ds ++ 0 :: ds') = false := by
  obtain ⟨front, e, rfl⟩ := (List.eq_nil_or_concat ds').resolve_left h
  have hinner : (d :: ds ++ 0 :: front.concat e).tail.dropLast = ds ++ 0 :: front := by
    rw [List.concat_eq_append, List.cons_append, List.tail_cons, ← List.cons_append, ← List.append_assoc,
      List.dropLast_concat]
  rw [wraps, hinner]
  simp

/-- Brackets do not wrap more than one token. -/
theorem peel_spaced {k : Token} {ks : List Token} (h : AreTokens (k :: ks)) (hne : ks ≠ []) :
    peel kinds (spaced (k :: ks)) = spaced (k :: ks) := by
  apply peel_of_not_isWrapped h.isTrimmed
  have hsign : ¬k.isSign = true := h.not_isSign k rfl
  obtain ⟨ds, c, -, hds, hdepths⟩ := @Token.exists_depths k [] none (' ' :: spaced ks)
    (h.valid k List.mem_cons_self) (fun h => absurd h hsign) fun _ => rfl
  rw [depths_blank] at hdepths
  -- the blank behind the first token lies outside of all groups
  have hlength : ds ≠ [] := by
    have hne := (Token.isTrimmed_text (h.valid k List.mem_cons_self)).ne_nil
    rw [← List.length_pos_iff, hds.length_eq]
    exact List.length_pos_iff.2 hne
  have hrest : depthsWithin [] 0 (some ' ') (spaced ks) ≠ [] := by
    rw [← List.length_pos_iff, length_depthsWithin]
    exact List.length_pos_iff.2 (h.tail hne).isTrimmed.ne_nil
  have hwraps : wraps (depths (spaced (k :: ks))) = false := by
    rw [depths, spaced_cons hne]
    change wraps (depthsWithin [] ([] : List Bracket).length none _) = false
    obtain ⟨d, ds, rfl⟩ := List.exists_cons_of_ne_nil hlength
    rw [hdepths]
    exact wraps_of_zero hrest
  unfold isWrapped
  split
  · split
    · simp [hwraps]
    · rfl
  · rfl

/-- Brackets do not wrap two texts of tokens with a token between them. -/
theorem peel_append {k : Token} {ks ks' : List Token} (h : AreTokens ks) (hk : k.IsValid) (h' : AreTokens ks') :
    peel kinds (spaced ks ++ ' ' :: (k.text ++ ' ' :: spaced ks')) =
      spaced ks ++ ' ' :: (k.text ++ ' ' :: spaced ks') := by
  have happend := h.append hk h'
  rw [← h.spaced_append h']
  obtain ⟨first, ks, rfl⟩ := List.exists_cons_of_ne_nil h.ne_nil
  exact peel_spaced happend (by simp)

/-- No brackets are around a text that does not begin with one. -/
theorem peel_of_first {t : Text} (ht : t.IsTrimmed) (hfirst : ∀ c ∈ t.head?, Bracket.ofOpener? c = none) :
    peel kinds t = t := by
  apply peel_of_not_isWrapped ht
  unfold isWrapped
  split
  · rw [hfirst _ rfl]
  · rfl

/-- No brackets are around a word. -/
theorem peel_word {t : Text} (h : (Token.word t).IsValid) : peel kinds t = t :=
  peel_of_first (Token.isTrimmed_text h) fun c hc => (h.2 c (List.mem_of_mem_head? hc)).opener

private theorem getLast?_concat_cons {α : Type} (a b : α) (l : List α) : (a :: (l ++ [b])).getLast? = some b := by
  rw [← List.cons_append, List.getLast?_concat]

/-- The brackets of a group are removed, and those of its inside. -/
theorem peel_group {b : Bracket} {inside : Text} (hb : b ∈ kinds) (h : inside.IsClosed) :
    peel kinds (b.opener :: (inside ++ [b.closer])) = peel kinds inside := by
  have hvalid : (Token.group b inside).IsValid := h
  have htrim : trim (b.opener :: (inside ++ [b.closer])) = b.opener :: (inside ++ [b.closer]) :=
    trim_eq_self (Token.isTrimmed_text hvalid)
  obtain ⟨ds, c, -, hds, hdepths⟩ := @Token.exists_depths (.group b inside) [] none [] hvalid nofun nofun
  have hwrapped : isWrapped kinds (b.opener :: (inside ++ [b.closer])) = true := by
    have hdepths' : depths (b.opener :: (inside ++ [b.closer])) = ds := by
      simpa [Token.text, depths, depthsWithin] using hdepths
    have hwraps : wraps ds = true := by
      cases hds with
      | group hlength hdeeper => simpa [wraps, getLast?_concat_cons] using hdeeper
    obtain ⟨d, tail, rfl, -⟩ := h.first
    have hopener : Bracket.ofOpener? b.opener = some b := Bracket.ofOpener?_eq_some_iff.2 rfl
    rw [List.cons_append] at hdepths' ⊢
    rw [isWrapped, hdepths', hopener]
    simp [hb, hwraps, getLast?_concat_cons]
  rw [peel, htrim, dif_pos hwrapped]
  simp [inner]

end Text

end BlockScript
