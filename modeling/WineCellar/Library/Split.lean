import Mathlib.Data.List.TakeWhile
import WineCellar.Library.Text

/-!
# Splitting a text

`split` cuts a text at the occurrences of a separator from left to right. `Ahead sep
a` says that in `a ++ sep` the separator does not occur before the end of `a`;
every text with an occurrence is `a ++ sep ++ b` for exactly one such `a`, and
the first part of the split is `a`. The rest of the module follows from this cut.
-/

namespace WineCellar.Library

variable {sep a b x y cs : List Char}

/-- No occurrence of `sep` in `a ++ sep` begins inside `a`. -/
def Ahead (sep a : List Char) : Prop := ∀ i < a.length, ¬sep <+: a.drop i ++ sep

theorem containsChars_iff : containsChars sep cs = true ↔ sep <:+: cs := by
  induction cs with
  | nil => simp [containsChars, List.infix_nil]
  | cons c cs ih => simp [containsChars, ih, List.infix_cons_iff]

theorem ahead_nil (sep : List Char) : Ahead sep [] := by
  intro i hi
  cases hi

theorem ahead_cons {c : Char} : Ahead sep (c :: a) ↔ ¬sep <+: c :: (a ++ sep) ∧ Ahead sep a := by
  constructor
  · intro h
    refine ⟨h 0 (by simp), ?_⟩
    intro i hi
    exact h (i + 1) (by simpa using hi)
  · rintro ⟨h₀, h⟩ i hi
    cases i with
    | zero => exact h₀
    | succ i => exact h i (by simpa using hi)

/-! ## The cut -/

theorem splitFrom_skip (sep part : List Char) (u : List Char) :
    splitFrom sep u.length part (u ++ cs) = splitFrom sep 0 part cs := by
  induction u with
  | nil => rfl
  | cons c u ih => exact ih

theorem splitFrom_cut (hsep : sep ≠ []) (h : Ahead sep a) (part : List Char) :
    splitFrom sep 0 part (a ++ sep ++ b) = (part.reverse ++ a) :: splitFrom sep 0 [] b := by
  induction a generalizing part with
  | nil =>
    obtain ⟨s, sep', rfl⟩ := List.exists_cons_of_ne_nil hsep
    simp only [List.nil_append, List.cons_append, List.append_nil, splitFrom]
    rw [if_pos (by simp)]
    exact congrArg _ (splitFrom_skip _ _ sep')
  | cons c a ih =>
    obtain ⟨h₀, h⟩ := ahead_cons.mp h
    simp only [List.cons_append, splitFrom]
    rw [if_neg, ih h]
    · simp
    · intro hpre
      have hpre : sep <+: c :: (a ++ sep) ++ b := by simpa using hpre
      exact h₀ (List.prefix_of_prefix_length_le hpre (List.prefix_append _ _) (by simp; omega))

theorem splitFrom_whole (h : ¬sep <:+: cs) (part : List Char) :
    splitFrom sep 0 part cs = [part.reverse ++ cs] := by
  induction cs generalizing part with
  | nil => simp [splitFrom]
  | cons c cs ih =>
    rw [List.infix_cons_iff, not_or] at h
    simp only [splitFrom]
    rw [if_neg (by simpa using h.1), ih h.2]
    simp

/-- The text cut at the first occurrence. -/
theorem exists_cut (h : sep <:+: cs) : ∃ a b, cs = a ++ sep ++ b ∧ Ahead sep a := by
  induction cs with
  | nil =>
    obtain rfl := List.infix_nil.mp h
    exact ⟨[], [], rfl, ahead_nil _⟩
  | cons c cs ih =>
    by_cases hpre : sep <+: c :: cs
    · obtain ⟨b, hb⟩ := hpre
      exact ⟨[], b, hb.symm, ahead_nil _⟩
    · obtain ⟨a, b, rfl, ha⟩ := ih ((List.infix_cons_iff.mp h).resolve_left hpre)
      refine ⟨c :: a, b, rfl, ahead_cons.mpr ⟨?_, ha⟩⟩
      intro h₀
      exact hpre (h₀.trans (by simp))

/-- No occurrence is left of the cut. -/
theorem length_cut_le (h : Ahead sep a) (he : a ++ sep ++ b = x ++ sep ++ y) :
    a.length ≤ x.length := by
  by_contra hlt
  rw [not_le] at hlt
  refine h x.length hlt ?_
  have hdrop : a.drop x.length ++ sep ++ b = sep ++ y := by
    have := congrArg (List.drop x.length) he
    rwa [List.append_assoc, List.append_assoc, List.drop_append_of_le_length hlt.le,
      List.drop_left, ← List.append_assoc] at this
  have hpre : sep <+: a.drop x.length ++ sep ++ b := ⟨y, hdrop.symm⟩
  exact List.prefix_of_prefix_length_le hpre (List.prefix_append _ _) (by simp)

theorem splitFrom_zero_cut (hsep : sep ≠ []) (h : Ahead sep a) :
    splitFrom sep 0 [] (a ++ sep ++ b) = a :: splitFrom sep 0 [] b :=
  splitFrom_cut hsep h []

theorem splitFrom_zero_whole (h : ¬sep <:+: cs) : splitFrom sep 0 [] cs = [cs] :=
  splitFrom_whole h []

/-- A text without the separator is one part; otherwise the first part is cut off. -/
theorem split_induction (hsep : sep ≠ []) {P : List Char → List (List Char) → Prop}
    (whole : ∀ cs, ¬sep <:+: cs → P cs [cs])
    (cut : ∀ a b, Ahead sep a → P b (splitFrom sep 0 [] b) →
      P (a ++ sep ++ b) (a :: splitFrom sep 0 [] b)) (cs : List Char) :
    P cs (splitFrom sep 0 [] cs) := by
  induction hn : cs.length using Nat.strong_induction_on generalizing cs with
  | _ n ih =>
    by_cases hin : sep <:+: cs
    · obtain ⟨a, b, rfl, ha⟩ := exists_cut hin
      rw [splitFrom_zero_cut hsep ha]
      have hpos := List.length_pos_iff.mpr hsep
      exact cut a b ha (ih b.length (by simp at hn; omega) b rfl)
    · rw [splitFrom_zero_whole hin]
      exact whole cs hin

theorem split_ne_nil (hsep : sep ≠ []) (cs : List Char) : splitFrom sep 0 [] cs ≠ [] :=
  split_induction (P := fun _ parts => parts ≠ []) hsep (by simp) (by simp) cs

/-! ## Texts put together -/

/-- An occurrence lies on one side of a character that is foreign to it. -/
theorem infix_append_cons {d : Char} (hd : d ∉ sep) :
    sep <:+: x ++ d :: y ↔ sep <:+: x ∨ sep <:+: y := by
  constructor
  · rintro ⟨s, t, he⟩
    rw [List.append_assoc] at he
    rcases List.append_eq_append_iff.mp he with ⟨w, hx, ht⟩ | ⟨w, hs, hy⟩
    · rcases List.append_eq_append_iff.mp ht with ⟨v, rfl, -⟩ | ⟨v, hv, hd'⟩
      · exact .inl ⟨s, v, by rw [hx]; simp⟩
      · cases v with
        | nil => exact .inl ⟨s, [], by rw [hx, hv]; simp⟩
        | cons d' v =>
          obtain ⟨rfl, -⟩ : d = d' ∧ y = v ++ t := by simpa using hd'
          exact absurd (by rw [hv]; simp) hd
    · cases w with
      | nil =>
        cases sep with
        | nil => exact .inl List.nil_infix
        | cons d' sep =>
          obtain ⟨rfl, -⟩ : d = d' ∧ y = sep ++ t := by simpa using hy
          exact absurd List.mem_cons_self hd
      | cons d' w =>
        obtain ⟨-, rfl⟩ : d = d' ∧ y = w ++ (sep ++ t) := by simpa using hy
        exact .inr ⟨w, t, by simp⟩
  · rintro (h | h)
    · exact h.trans ⟨[], d :: y, by simp⟩
    · exact h.trans ⟨x ++ [d], [], by simp⟩

/-- A text whose last character is foreign to the separator is split on its own. -/
theorem split_append_sep {c : Char} (hsep : sep ≠ []) (hc : c ∉ sep) (u b : List Char) :
    splitFrom sep 0 [] (u ++ [c] ++ sep ++ b) =
      splitFrom sep 0 [] (u ++ [c]) ++ splitFrom sep 0 [] b := by
  induction hn : u.length using Nat.strong_induction_on generalizing u with
  | _ n ih =>
    by_cases hin : sep <:+: u ++ [c]
    · obtain ⟨a, b', he, ha⟩ := exists_cut hin
      -- the separator does not end in `c`, so something follows it
      rcases List.eq_nil_or_concat b' with rfl | ⟨u', c', rfl⟩
      · obtain ⟨sep', s, rfl⟩ := (List.eq_nil_or_concat sep).resolve_left hsep
        rw [List.append_nil, List.concat_eq_append, ← List.append_assoc] at he
        obtain ⟨-, hs⟩ := List.append_inj' he rfl
        simp at hs hc
        exact absurd hs hc.2
      · rw [List.concat_eq_append, ← List.append_assoc] at he
        obtain ⟨hu, hs⟩ := List.append_inj' he rfl
        obtain rfl : c = c' := by simpa using hs
        have hlt : u'.length < n := by
          have := List.length_pos_iff.mpr hsep
          rw [← hn, hu]
          simp
          omega
        have hwhole : u ++ [c] ++ sep ++ b = a ++ sep ++ (u' ++ [c] ++ sep ++ b) := by
          rw [he]
          simp
        rw [hwhole, splitFrom_zero_cut hsep ha, ih u'.length hlt u' rfl, he, List.append_assoc,
          splitFrom_zero_cut hsep ha, List.cons_append]
    · rw [splitFrom_zero_whole hin, splitFrom_zero_cut hsep, List.singleton_append]
      intro i hi hpre
      rw [List.drop_append_of_le_length (by simpa [Nat.lt_succ_iff] using hi)] at hpre
      rcases List.prefix_or_prefix_of_prefix hpre (List.prefix_append _ _) with h | h
      · exact hin (h.isInfix.trans ⟨u.take i, [], by simp [← List.append_assoc]⟩)
      · exact hc (h.subset (by simp))

/-- The last part begins at the latest at the last character that is foreign to
the separator when no separator follows it. -/
theorem getLast_split {d : Char} (hsep : sep ≠ []) (hd : d ∉ sep) {v : List Char}
    (hv : ¬sep <:+: d :: v) (u : List Char) :
    ∃ u', (splitFrom sep 0 [] (u ++ d :: v)).getLast? = some (u' ++ d :: v) := by
  induction hn : u.length using Nat.strong_induction_on generalizing u with
  | _ n ih =>
    by_cases hin : sep <:+: u ++ d :: v
    · obtain ⟨a, b, he, ha⟩ := exists_cut hin
      -- the occurrence ends before `d`
      have hcut : ∃ u', u = a ++ sep ++ u' ∧ b = u' ++ d :: v := by
        rcases List.append_eq_append_iff.mp he with ⟨t, ht, hb⟩ | h
        · cases t with
          | nil => exact ⟨[], by simpa using ht.symm, by simpa using hb.symm⟩
          | cons d' w =>
            obtain ⟨rfl, rfl⟩ : d = d' ∧ v = w ++ b := by simpa using hb
            rcases List.append_eq_append_iff.mp ht with ⟨t, -, hsub⟩ | ⟨t, -, hsub⟩
            · exact absurd (by rw [hsub]; simp) hd
            · exact absurd ⟨t, b, by rw [← hsub]; rfl⟩ hv
        · exact h
      obtain ⟨u', rfl, rfl⟩ := hcut
      have hpos := List.length_pos_iff.mpr hsep
      obtain ⟨u'', hlast⟩ := ih u'.length (by simp at hn; omega) u' rfl
      refine ⟨u'', ?_⟩
      rw [he, splitFrom_zero_cut hsep ha, List.getLast?_cons_of_ne_nil (split_ne_nil hsep _),
        hlast]
    · exact ⟨u, by rw [splitFrom_zero_whole hin]; rfl⟩

/-- The part after the last separator, when its first character occurs only
there. -/
theorem getLast_split_of_head {s : Char} {sep' : List Char} (hs : s ∉ sep') (hy : s ∉ y)
    (u : List Char) :
    (splitFrom (s :: sep') 0 [] (u ++ (s :: sep' ++ y))).getLast? = some y := by
  induction hn : u.length using Nat.strong_induction_on generalizing u with
  | _ n ih =>
    have hin : s :: sep' <:+: u ++ (s :: sep' ++ y) := ⟨u, y, by simp⟩
    obtain ⟨a, b, he, ha⟩ := exists_cut hin
    have hle := length_cut_le ha (x := u) (y := y) (by rw [← he]; simp)
    rw [he, splitFrom_zero_cut (by simp) ha]
    rw [List.append_assoc] at he
    obtain ⟨t, rfl⟩ : a <+: u := List.prefix_of_prefix_length_le
      (List.prefix_append a (s :: sep' ++ b)) (he ▸ List.prefix_append _ _) hle
    rw [List.append_assoc, List.append_cancel_left_eq] at he
    cases t with
    | nil =>
      obtain rfl : y = b := by simpa using he
      rw [splitFrom_zero_whole fun h => hy (h.subset List.mem_cons_self)]
      rfl
    | cons s' t =>
      obtain ⟨-, he⟩ : s' = s ∧ t ++ (s :: sep' ++ y) = sep' ++ b := by simpa using he
      -- the two occurrences do not overlap
      have hcut : ∃ r, t = sep' ++ r ∧ b = r ++ (s :: sep' ++ y) := by
        rcases List.append_eq_append_iff.mp he with ⟨r, hr, hb⟩ | h
        · cases r with
          | nil => exact ⟨[], by simpa using hr.symm, by simpa using hb.symm⟩
          | cons s'' r =>
            obtain ⟨rfl, -⟩ : s = s'' ∧ sep' ++ y = r ++ b := by simpa using hb
            exact absurd (by simp [hr]) hs
        · exact h
      obtain ⟨r, rfl, rfl⟩ := hcut
      rw [List.getLast?_cons_of_ne_nil (split_ne_nil (by simp) _)]
      exact ih r.length (by simp at hn; omega) r rfl

/-- Texts that end in a character foreign to the separator are split one by one. -/
theorem split_join {sep : String} (hsep : sep.toList ≠ []) {texts : List String}
    (hne : texts ≠ []) (hlast : ∀ s ∈ texts, ∃ u c, s.toList = u ++ [c] ∧ c ∉ sep.toList) :
    split sep (join sep texts) = texts.flatMap (split sep) := by
  induction texts with
  | nil => exact absurd rfl hne
  | cons s texts ih =>
    cases texts with
    | nil => simp [join]
    | cons t texts =>
      obtain ⟨u, c, hu, hc⟩ := hlast s List.mem_cons_self
      have hrest := ih (by simp) fun s' hs' => hlast s' (List.mem_cons_of_mem _ hs')
      rw [List.flatMap_cons, ← hrest]
      simp only [split, join, String.toList_append, hu]
      rw [split_append_sep hsep hc, List.map_append]

theorem join_concat (sep last : String) {texts : List String} (hne : texts ≠ []) :
    join sep (texts ++ [last]) = join sep texts ++ sep ++ last := by
  induction texts with
  | nil => exact absurd rfl hne
  | cons s texts ih =>
    cases texts with
    | nil => rfl
    | cons t texts =>
      have hrest := ih (by simp)
      simp only [List.cons_append, join] at hrest ⊢
      rw [hrest]
      simp [String.append_assoc]

theorem join_ne_empty {sep : String} {texts : List String} (hne : texts ≠ [])
    (h : ∀ s ∈ texts, s ≠ "") : join sep texts ≠ "" := by
  obtain ⟨s, texts, rfl⟩ := List.exists_cons_of_ne_nil hne
  have hs := h s List.mem_cons_self
  cases texts with
  | nil => exact hs
  | cons t texts =>
    intro he
    have hchars := congrArg String.toList he
    simp only [join, String.toList_append] at hchars
    exact hs (by simpa using (List.append_eq_nil_iff.mp (List.append_eq_nil_iff.mp hchars).1).1)

/-! ## What the parts hold -/

/-- The parts share the characters of the text. -/
theorem sum_count_split_le (hsep : sep ≠ []) (c : Char) (cs : List Char) :
    ((splitFrom sep 0 [] cs).map (List.count c)).sum ≤ cs.count c := by
  refine split_induction (P := fun cs parts => (parts.map (List.count c)).sum ≤ cs.count c) hsep
    (by simp) ?_ cs
  intro a b _ ih
  simp only [List.map_cons, List.sum_cons, List.count_append]
  omega

/-- The characters of a separator are lost. -/
theorem sum_count_split_lt {c : Char} (hc : c ∈ sep) (h : sep <:+: cs) :
    ((splitFrom sep 0 [] cs).map (List.count c)).sum < cs.count c := by
  have hsep := List.ne_nil_of_mem hc
  obtain ⟨a, b, rfl, ha⟩ := exists_cut h
  rw [splitFrom_zero_cut hsep ha]
  have hb := sum_count_split_le hsep c b
  have hpos := List.count_pos_iff.mpr hc
  simp only [List.map_cons, List.sum_cons, List.count_append]
  omega

/-- A separator of one character between two blanks. -/
theorem ahead_blanks_iff {c : Char} (hc : c ≠ ' ') :
    Ahead [' ', c, ' '] a ↔ ¬[' ', c, ' '] <:+: a ++ [' '] := by
  induction a with
  | nil =>
    simp only [ahead_nil, true_iff]
    intro h
    have := h.length_le
    simp at this
  | cons d a ih =>
    have hfirst : [' ', c, ' '] <+: d :: (a ++ [' ', c, ' ']) ↔
        [' ', c, ' '] <+: d :: (a ++ [' ']) := by
      match a with
      | [] => simp [hc]
      | [e] => simp
      | e :: f :: a => simp
    rw [ahead_cons, ih, hfirst, List.cons_append, List.infix_cons_iff, not_or]

/-- A text that lacks a character of the separator. -/
theorem ahead_of_not_mem {c : Char} (hc : c ∈ sep) (ha : c ∉ a) : Ahead sep a := by
  rintro i hi ⟨t, ht⟩
  have hdrop : c ∉ a.drop i := fun h => ha (List.mem_of_mem_drop h)
  have hleft : (sep ++ t).idxOf c = sep.idxOf c := List.idxOf_append_of_mem hc
  rw [ht, List.idxOf_append_of_notMem hdrop, List.length_drop] at hleft
  omega

/-! ## Trimmed texts -/

theorem trimChars_isInfix (cs : List Char) : trimChars cs <:+: cs := by
  unfold trimChars
  have hback := List.dropWhile_suffix isBlank (l := (cs.dropWhile isBlank).reverse)
  have hpre := List.reverse_prefix.mpr hback
  rw [List.reverse_reverse] at hpre
  exact hpre.isInfix.trans (List.dropWhile_suffix _).isInfix

/-- Trimming a text that gets no shorter changes nothing. -/
theorem trimChars_eq_of_length (h : cs.length ≤ (trimChars cs).length) : trimChars cs = cs :=
  (trimChars_isInfix cs).sublist.eq_of_length_le h

theorem mem_trimChars {c : Char} (hc : isBlank c = false) (h : c ∈ cs) : c ∈ trimChars cs := by
  have hkeep {xs : List Char} (hx : c ∈ xs) : c ∈ xs.dropWhile isBlank := by
    rw [← List.takeWhile_append_dropWhile (p := isBlank) (l := xs)] at hx
    rcases List.mem_append.mp hx with hin | hin
    · exact absurd (List.all_eq_true.mp List.all_takeWhile c hin) (by simp [hc])
    · exact hin
  rw [trimChars, List.mem_reverse]
  exact hkeep (List.mem_reverse.mpr (hkeep h))

/-- Blanks before a text that begins and ends with other characters. -/
theorem trimChars_append {p : List Char} (hp : ∀ c ∈ p, isBlank c)
    (hhead : ∀ c ∈ cs.head?, isBlank c = false) (hlast : ∀ c ∈ cs.getLast?, isBlank c = false) :
    trimChars (p ++ cs) = cs := by
  have hdrop {xs : List Char} (hxs : ∀ c ∈ xs.head?, isBlank c = false) :
      xs.dropWhile isBlank = xs := by
    cases xs with
    | nil => rfl
    | cons c xs => simp [hxs c rfl]
  rw [trimChars, List.dropWhile_append_of_pos hp, hdrop hhead, hdrop, List.reverse_reverse]
  simpa using hlast

theorem trimChars_eq_self (hhead : ∀ c ∈ cs.head?, isBlank c = false)
    (hlast : ∀ c ∈ cs.getLast?, isBlank c = false) : trimChars cs = cs :=
  trimChars_append (p := []) (by simp) hhead hlast

theorem head_dropWhile (cs : List Char) : ∀ c ∈ (cs.dropWhile isBlank).head?, isBlank c = false := by
  intro c hc
  have hhead := List.head?_dropWhile_not isBlank cs
  rw [Option.mem_def.mp hc] at hhead
  simpa using hhead

theorem getLast_trimChars (cs : List Char) : ∀ c ∈ (trimChars cs).getLast?, isBlank c = false := by
  rw [trimChars, List.getLast?_reverse]
  exact head_dropWhile _

theorem head_trimChars (cs : List Char) : ∀ c ∈ (trimChars cs).head?, isBlank c = false := by
  intro c hc
  have hstart : trimChars cs <+: cs.dropWhile isBlank := by
    have hback := List.dropWhile_suffix isBlank (l := (cs.dropWhile isBlank).reverse)
    simpa [trimChars] using List.reverse_prefix.mpr hback
  obtain ⟨rest, hrest⟩ := hstart
  refine head_dropWhile cs c ?_
  rw [← hrest, List.head?_append, Option.mem_def.mp hc]
  rfl

theorem trimChars_trimChars (cs : List Char) : trimChars (trimChars cs) = trimChars cs :=
  trimChars_eq_self (head_trimChars cs) (getLast_trimChars cs)

@[simp] theorem trim_trim (s : String) : trim (trim s) = trim s := by
  rw [trim, trim, String.toList_ofList, trimChars_trimChars]

@[simp] theorem trim_empty : trim "" = "" := rfl

theorem trimChars_blanks_append {p : List Char} (hp : ∀ c ∈ p, isBlank c) (cs : List Char) :
    trimChars (p ++ cs) = trimChars cs := by
  rw [trimChars, List.dropWhile_append_of_pos hp, trimChars]

theorem trimChars_append_blanks {q : List Char} (hq : ∀ c ∈ q, isBlank c) (cs : List Char) :
    trimChars (cs ++ q) = trimChars cs := by
  have hback : ∀ c ∈ q.reverse, isBlank c := fun c hc => hq c (List.mem_reverse.mp hc)
  by_cases hcs : cs.dropWhile isBlank = []
  · have hblank : ∀ c ∈ cs, isBlank c := List.dropWhile_eq_nil_iff.mp hcs
    have hall : (cs ++ q).dropWhile isBlank = [] := by
      rw [List.dropWhile_append_of_pos hblank]
      exact List.dropWhile_eq_nil_iff.mpr hq
    rw [trimChars, trimChars, hall, hcs]
  · have hdrop : (cs ++ q).dropWhile isBlank = cs.dropWhile isBlank ++ q := by
      rw [List.dropWhile_append, if_neg (by simpa using hcs)]
    rw [trimChars, hdrop, List.reverse_append, List.dropWhile_append_of_pos hback, trimChars]

theorem exists_blanks (cs : List Char) : ∃ p q, cs = p ++ trimChars cs ++ q ∧
    (∀ c ∈ p, isBlank c) ∧ ∀ c ∈ q, isBlank c := by
  have hall (xs : List Char) : ∀ c ∈ xs.takeWhile isBlank, isBlank c :=
    fun c hc => List.all_eq_true.mp List.all_takeWhile c hc
  refine ⟨cs.takeWhile isBlank, ((cs.dropWhile isBlank).reverse.takeWhile isBlank).reverse, ?_,
    hall cs, ?_⟩
  · have hback := congrArg List.reverse
      (List.takeWhile_append_dropWhile (p := isBlank) (l := (cs.dropWhile isBlank).reverse))
    rw [List.reverse_append, List.reverse_reverse] at hback
    rw [List.append_assoc, trimChars, hback, List.takeWhile_append_dropWhile]
  · intro c hc
    exact hall _ c (List.mem_reverse.mp hc)

/-- The trimmed text of a field, null when it is empty. -/
def entered (text : String) : Option String := if trim text = "" then none else some (trim text)

/-! ## Lists with commas -/

/-- The part of a list: a text with no comma in it and no blank around it. -/
def ListPart (s : String) : Prop := s ≠ "" ∧ trim s = s ∧ ',' ∉ s.toList

theorem ListPart.head {s : String} (h : ListPart s) : ∀ c ∈ s.toList.head?, isBlank c = false := by
  have hchars : trimChars s.toList = s.toList := by
    have htrim := congrArg String.toList h.2.1
    rwa [trim, String.toList_ofList] at htrim
  rw [← hchars]
  exact head_trimChars _

theorem ListPart.getLast {s : String} (h : ListPart s) :
    ∀ c ∈ s.toList.getLast?, isBlank c = false := by
  have hchars : trimChars s.toList = s.toList := by
    have htrim := congrArg String.toList h.2.1
    rwa [trim, String.toList_ofList] at htrim
  rw [← hchars]
  exact getLast_trimChars _

/-- The parts come back, also after blanks. -/
theorem splitFrom_joined {texts : List String} (hne : texts ≠ []) (h : ∀ s ∈ texts, ListPart s)
    {p : List Char} (hp : ∀ c ∈ p, isBlank c ∧ c ≠ ',') :
    (splitFrom [','] 0 [] (p ++ (join ", " texts).toList)).map trimChars =
      texts.map String.toList := by
  induction texts generalizing p with
  | nil => exact absurd rfl hne
  | cons s texts ih =>
    obtain ⟨hs, htexts⟩ := List.forall_mem_cons.mp h
    have hcomma : ',' ∉ p ++ s.toList := by
      intro hmem
      rcases List.mem_append.mp hmem with hin | hin
      · exact (hp _ hin).2 rfl
      · exact hs.2.2 hin
    have htrim : trimChars (p ++ s.toList) = s.toList :=
      trimChars_append (fun c hc => (hp c hc).1) hs.head hs.getLast
    cases texts with
    | nil =>
      have hwhole : ¬[','] <:+: p ++ s.toList := fun hin => hcomma (hin.subset (by simp))
      rw [join, splitFrom_zero_whole hwhole, List.map_singleton, htrim]
      rfl
    | cons t texts =>
      have hchars : p ++ (join ", " (s :: t :: texts)).toList =
          (p ++ s.toList) ++ [','] ++ ([' '] ++ (join ", " (t :: texts)).toList) := by
        simp [join]
      rw [hchars, splitFrom_zero_cut (by simp)
        (ahead_of_not_mem (List.mem_singleton_self _) hcomma), List.map_cons, htrim,
        ih (by simp) htexts (p := [' ']) (by simp [isBlank])]
      rfl

theorem splitFrom_prefix_append {c : Char} {p : List Char} (hp : c ∉ p) (part cs : List Char) :
    splitFrom [c] 0 part (p ++ cs) = splitFrom [c] 0 (part.reverse ++ p).reverse cs := by
  induction p generalizing part with
  | nil => simp
  | cons d p ih =>
    have hd : c ≠ d := fun he => hp (by simp [he])
    have hrest : c ∉ p := fun hin => hp (List.mem_cons_of_mem _ hin)
    rw [List.cons_append, splitFrom, if_neg (by simpa [List.isPrefixOf] using hd), ih hrest]
    simp

/-- Blanks at the ends of the text are blanks at the ends of its parts. -/
theorem splitFrom_blanks_append {p : List Char} (hp : ∀ c ∈ p, isBlank c) (part cs : List Char) :
    (splitFrom [','] 0 (part ++ p.reverse) cs).map trimChars =
      (splitFrom [','] 0 part cs).map trimChars := by
  induction cs generalizing part with
  | nil => simp [splitFrom, trimChars_blanks_append hp]
  | cons c cs ih =>
    rw [splitFrom, splitFrom]
    split_ifs
    · simp [trimChars_blanks_append hp]
    · exact ih (c :: part)

theorem splitFrom_append_blanks {q : List Char} (hq : ∀ c ∈ q, isBlank c ∧ c ≠ ',')
    (part cs : List Char) :
    (splitFrom [','] 0 part (cs ++ q)).map trimChars =
      (splitFrom [','] 0 part cs).map trimChars := by
  induction cs generalizing part with
  | nil =>
    have hwhole : ¬[','] <:+: q := fun hin => (hq ',' (hin.subset (by simp))).2 rfl
    rw [List.nil_append, splitFrom_whole hwhole, splitFrom, List.map_singleton, List.map_singleton,
      trimChars_append_blanks fun c hc => (hq c hc).1]
  | cons c cs ih =>
    rw [List.cons_append, splitFrom, splitFrom]
    have hsep : [','].isPrefixOf (c :: (cs ++ q)) = [','].isPrefixOf (c :: cs) := by
      simp [List.isPrefixOf]
    rw [hsep]
    split_ifs
    · simp [ih]
    · exact ih (c :: part)

/-- Splitting at the commas, trimming and dropping what is empty. -/
def listParts (s : String) : List String := ((split "," s).map trim).filter (· ≠ "")

theorem listParts_eq (s : String) :
    listParts s = (((splitFrom [','] 0 [] s.toList).map trimChars).map String.ofList).filter
      (· ≠ "") := by
  simp [listParts, split, trim, Function.comp_def]

/-- The blanks around the list do not matter. -/
theorem listParts_trim (s : String) : listParts (trim s) = listParts s := by
  obtain ⟨p, q, hchars, hp, hq⟩ := exists_blanks s.toList
  have hcomma {c : Char} (hc : isBlank c) : c ≠ ',' := by
    rintro rfl
    revert hc
    decide
  have hparts : (splitFrom [','] 0 [] s.toList).map trimChars =
      (splitFrom [','] 0 [] (trimChars s.toList)).map trimChars := by
    conv_lhs => rw [hchars]
    rw [splitFrom_append_blanks fun c hc => ⟨hq c hc, hcomma (hq c hc)⟩,
      splitFrom_prefix_append (fun hin => hcomma (hp _ hin) rfl)]
    exact splitFrom_blanks_append hp [] _
  rw [listParts_eq, listParts_eq, hparts, trim, String.toList_ofList]

theorem not_mem_of_mem_splitFrom {c : Char} {part : List Char}
    (h : part ∈ splitFrom [c] 0 [] cs) : c ∉ part := by
  have hparts : ∀ part ∈ splitFrom [c] 0 [] cs, c ∉ part := by
    refine split_induction (P := fun _ parts => ∀ part ∈ parts, c ∉ part) (by simp) ?_ ?_ cs
    · intro cs hwhole part hpart hin
      rw [List.mem_singleton.mp hpart] at hin
      obtain ⟨u, v, rfl⟩ := List.append_of_mem hin
      exact hwhole ⟨u, v, by simp⟩
    · intro a b ha hrest
      refine List.forall_mem_cons.mpr ⟨?_, hrest⟩
      intro hin
      obtain ⟨u, v, rfl⟩ := List.append_of_mem hin
      exact ha u.length (by simp) (by simp)
  exact hparts part h

theorem listPart_of_mem {s t : String} (h : s ∈ listParts t) : ListPart s := by
  rw [listParts, List.mem_filter, decide_eq_true_eq] at h
  obtain ⟨hmem, hne⟩ := h
  obtain ⟨part, hpart, rfl⟩ := List.mem_map.mp hmem
  obtain ⟨chars, hchars, rfl⟩ := List.mem_map.mp hpart
  refine ⟨hne, trim_trim _, ?_⟩
  intro hin
  rw [trim, String.toList_ofList, String.toList_ofList] at hin
  exact not_mem_of_mem_splitFrom hchars ((trimChars_isInfix chars).subset hin)

theorem trim_join {texts : List String} (h : ∀ s ∈ texts, ListPart s) :
    trim (join ", " texts) = join ", " texts := by
  have hhead : ∀ c ∈ (join ", " texts).toList.head?, isBlank c = false := by
    cases texts with
    | nil => simp [join]
    | cons s texts =>
      have hs := h s List.mem_cons_self
      have hchars : s.toList ≠ [] := by simpa using hs.1
      cases texts with
      | nil => exact hs.head
      | cons t texts =>
        intro c hc
        refine hs.head c ?_
        simpa [join, List.head?_append_of_ne_nil _ hchars] using hc
  have hlast : ∀ c ∈ (join ", " texts).toList.getLast?, isBlank c = false := by
    rcases List.eq_nil_or_concat texts with rfl | ⟨texts, last, rfl⟩
    · simp [join]
    · have hs := h last (by simp)
      have hchars : last.toList ≠ [] := by simpa using hs.1
      by_cases hnil : texts = []
      · subst hnil
        exact hs.getLast
      · intro c hc
        refine hs.getLast c ?_
        rw [List.concat_eq_append, join_concat _ _ hnil, String.toList_append] at hc
        rwa [List.getLast?_append_of_ne_nil _ hchars] at hc
  rw [trim, trimChars_eq_self hhead hlast, String.ofList_toList]

/-- A list that was joined is split into its parts. -/
theorem listParts_join {texts : List String} (hne : texts ≠ []) (h : ∀ s ∈ texts, ListPart s) :
    listParts (join ", " texts) = texts := by
  have hparts := splitFrom_joined hne h (p := []) (by simp)
  have hsplit : (split "," (join ", " texts)).map trim = texts := by
    have hstrings := congrArg (List.map String.ofList) hparts
    simpa [split, trim, Function.comp_def] using hstrings
  rw [listParts, hsplit, List.filter_eq_self]
  intro s hs
  simpa using (h s hs).1

theorem splitFrom_append_cons (c : Char) (part cs ds : List Char) :
    splitFrom [c] 0 part (cs ++ c :: ds) = splitFrom [c] 0 part cs ++ splitFrom [c] 0 [] ds := by
  induction cs generalizing part with
  | nil => simp [splitFrom]
  | cons d cs ih =>
    rw [List.cons_append, splitFrom, splitFrom]
    have hsep : [c].isPrefixOf (d :: (cs ++ c :: ds)) = [c].isPrefixOf (d :: cs) := by
      simp [List.isPrefixOf]
    rw [hsep]
    split_ifs
    · exact congrArg _ (ih [])
    · exact ih (d :: part)

/-- A comma separates the parts before it from those behind it. -/
theorem listParts_append (s t : String) :
    listParts (s ++ "," ++ t) = listParts s ++ listParts t := by
  have hchars : (s ++ "," ++ t).toList = s.toList ++ ',' :: t.toList := by simp
  rw [listParts_eq, listParts_eq, listParts_eq, hchars, splitFrom_append_cons, List.map_append,
    List.map_append, List.filter_append]

theorem listParts_blank_append (s : String) : listParts (" " ++ s) = listParts s := by
  have htrim : trim (" " ++ s) = trim s := by
    have hchars : (" " ++ s).toList = [' '] ++ s.toList := by simp
    rw [trim, hchars, trimChars_blanks_append (by simp [isBlank]), trim]
  rw [← listParts_trim, htrim, listParts_trim]

theorem listParts_comma_append (s t : String) :
    listParts (s ++ ", " ++ t) = listParts s ++ listParts t := by
  have hcomma : s ++ ", " ++ t = s ++ "," ++ (" " ++ t) := by
    apply String.toList_injective
    simp
  rw [hcomma, listParts_append, listParts_blank_append]

/-- Joined texts are split into the parts of each. -/
theorem listParts_joined (texts : List String) :
    listParts (join ", " texts) = texts.flatMap listParts := by
  induction texts with
  | nil => simp [join, listParts_eq, splitFrom, trimChars]
  | cons s texts ih =>
    cases texts with
    | nil => simp [join]
    | cons t texts =>
      have hjoin : join ", " (s :: t :: texts) = s ++ ", " ++ join ", " (t :: texts) := rfl
      rw [hjoin, listParts_comma_append, ih]
      exact List.flatMap_cons.symm

theorem ListPart.listParts {s : String} (h : ListPart s) : listParts s = [s] :=
  listParts_join (List.cons_ne_nil s []) (by simpa using h)

end WineCellar.Library
