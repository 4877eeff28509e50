import WineCellar.Library.Numerals
import WineCellar.Database.Places
import WineCellar.Pages.MainPage

/-!
# Location texts read back

The entry of a group is `cabinet > shelf > Spot 1, 2`. Whatever the names are, the
last piece of an entry ends in its spot numbers, and the numbers after the last
`Spot ` are those of the group. The names come back when no separator stands in
them or arises at their ends.
-/

namespace WineCellar.Pages

open Library Database

/-! ## Spot numbers -/

/-- The spot numbers of a group. -/
def indexText (indexes : List ℤ) : String := join ", " (indexes.map toString)

theorem indexText_cons (i j : ℤ) (indexes : List ℤ) :
    (indexText (i :: j :: indexes)).toList =
      (toString i).toList ++ [','] ++ (' ' :: (indexText (j :: indexes)).toList) := by
  simp [indexText, join]

theorem mem_indexText {indexes : List ℤ} {c : Char} (h : c ∈ (indexText indexes).toList) :
    IsNumeral c ∨ c = ',' ∨ c = ' ' := by
  induction indexes with
  | nil => simp [indexText, join] at h
  | cons i indexes ih =>
    cases indexes with
    | nil => exact .inl (mem_toString h)
    | cons j indexes =>
      rw [indexText_cons] at h
      simp only [List.mem_append, List.mem_cons, List.not_mem_nil, or_false] at h
      rcases h with (h | h) | h | h
      · exact .inl (mem_toString h)
      · exact .inr (.inl h)
      · exact .inr (.inr h)
      · exact ih h

/-- What the separators and the names of the text are told by. -/
theorem notMem_indexText {d : Char} (indexes : List ℤ)
    (hd : d.isDigit = false ∧ d ≠ '-' ∧ d ≠ ',' ∧ d ≠ ' ') : d ∉ (indexText indexes).toList := by
  obtain ⟨hdigit, hdash, hcomma, hblank⟩ := hd
  intro hin
  rcases mem_indexText hin with hn | hn | hn
  · exact hn.ne hdigit hdash rfl
  · exact hcomma hn
  · exact hblank hn

theorem indexText_last {indexes : List ℤ} (h : indexes ≠ []) :
    ∃ u c, (indexText indexes).toList = u ++ [c] ∧ IsNumeral c := by
  induction indexes with
  | nil => exact absurd rfl h
  | cons i indexes ih =>
    cases indexes with
    | nil =>
      obtain ⟨u, c, hu⟩ := (List.eq_nil_or_concat (toString i).toList).resolve_left (toString_ne_nil i)
      rw [List.concat_eq_append] at hu
      exact ⟨u, c, hu, mem_toString (by rw [hu]; simp)⟩
    | cons j indexes =>
      obtain ⟨u, c, hu, hc⟩ := ih (by simp)
      exact ⟨_, c, by rw [indexText_cons, hu, ← List.cons_append, ← List.append_assoc], hc⟩

theorem listPart_toString (i : ℤ) : ListPart (toString i) :=
  ⟨toString_ne_empty i, trim_toString i,
    fun hin => (mem_toString hin).ne (by decide) (by decide) rfl⟩

/-- The numbers come back, also after blanks. -/
theorem splitFrom_indexText {indexes : List ℤ} (h : indexes ≠ []) {p : List Char}
    (hp : ∀ c ∈ p, isBlank c ∧ c ≠ ',') :
    (splitFrom [','] 0 [] (p ++ (indexText indexes).toList)).map trimChars =
      indexes.map fun i => (toString i).toList := by
  have hparts : ∀ s ∈ indexes.map toString, ListPart s := by
    intro s hs
    obtain ⟨i, -, rfl⟩ := List.mem_map.mp hs
    exact listPart_toString i
  have hne : indexes.map toString ≠ [] := by simpa using h
  rw [indexText, splitFrom_joined hne hparts hp, List.map_map]
  rfl

/-! ## Locations that end in spots -/

/-- The location ends in `Spot ` and these numbers. -/
def EndsInSpots (loc : String) (indexes : List ℤ) : Prop :=
  indexes ≠ [] ∧ ∃ u, loc.toList = u ++ ("Spot ".toList ++ (indexText indexes).toList)

variable {loc : String} {indexes : List ℤ}

theorem EndsInSpots.contains (h : EndsInSpots loc indexes) : contains "Spot " loc := by
  obtain ⟨-, u, hu⟩ := h
  rw [Library.contains, containsChars_iff, hu]
  exact ⟨u, (indexText indexes).toList, by simp⟩

theorem EndsInSpots.ne_unassigned (h : EndsInSpots loc indexes) : loc ≠ "Unassigned" := by
  rintro rfl
  have := h.contains
  revert this
  decide

/-- Behind the last `Spot ` stand the numbers. -/
theorem EndsInSpots.getLast_split (h : EndsInSpots loc indexes) :
    (split "Spot " loc).getLastD "" = indexText indexes := by
  obtain ⟨-, u, hu⟩ := h
  have hnumbers : 'S' ∉ (indexText indexes).toList := notMem_indexText indexes (by decide)
  have hchars : (splitFrom "Spot ".toList 0 [] loc.toList).getLast? =
      some (indexText indexes).toList := by
    rw [hu]
    exact getLast_split_of_head (s := 'S') (by decide) hnumbers u
  rw [List.getLastD_eq_getLast?, split, List.getLast?_map, hchars]
  simp

theorem EndsInSpots.spotParts (h : EndsInSpots loc indexes) :
    (spotParts loc).map trim = indexes.map toString := by
  have hchars := congrArg (List.map String.ofList) (splitFrom_indexText h.1 (p := []) (by simp))
  rw [List.nil_append, List.map_map, List.map_map] at hchars
  rw [Pages.spotParts, h.getLast_split, split, List.map_map]
  simp only [Function.comp_def, trim, String.toList_ofList, String.ofList_toList] at hchars ⊢
  exact hchars

theorem EndsInSpots.spotsOf (h : EndsInSpots loc indexes) :
    spotsOf loc = indexes.map toString := by
  rw [Pages.spotsOf, if_pos ⟨h.ne_unassigned, h.contains⟩, h.spotParts, List.filter_eq_self]
  intro s hs
  obtain ⟨i, -, rfl⟩ := List.mem_map.mp hs
  simpa using toString_ne_empty i

theorem EndsInSpots.spotCount (h : EndsInSpots loc indexes) :
    spotCount loc = indexes.length := by
  have hspots := congrArg List.length h.spotsOf
  rw [Pages.spotsOf, if_pos ⟨h.ne_unassigned, h.contains⟩, List.filter_map, List.length_map,
    List.length_map] at hspots
  simpa only [Pages.spotCount, Function.comp_def] using hspots

theorem EndsInSpots.locationWines (h : EndsInSpots loc indexes) (wine : WineModel)
    (locations : List String) (remainder : ℤ) :
    locationWines wine locations remainder loc = indexes.map fun i =>
      { wine with
        quantity := 1
        cellarLocation := some ((sectionOf loc).1 ++ " > " ++ (sectionOf loc).2 ++ " > Spot " ++
          toString i) } := by
  obtain ⟨i, indexes, rfl⟩ := List.exists_cons_of_ne_nil h.1
  simp only [Pages.locationWines, h.spotsOf, List.map_cons, List.map_map]
  rfl

/-! ## The pieces of an entry -/

/-- The entry of one group in a location text. -/
def entryText (g : String × List ℤ) : String := g.1 ++ " > Spot " ++ indexText g.2

theorem entry_endsInSpots {g : String × List ℤ} (h : g.2 ≠ []) : EndsInSpots (entryText g) g.2 :=
  ⟨h, (g.1 ++ " > ").toList, by simp [entryText]⟩

/-- No separator stands behind the name of the shelf. -/
theorem not_infix_numbers (indexes : List ℤ) :
    ¬" ; ".toList <:+: '>' :: (" Spot ".toList ++ (indexText indexes).toList) := by
  intro hin
  have hmem : ';' ∈ '>' :: (" Spot ".toList ++ (indexText indexes).toList) := hin.subset (by simp)
  simp only [List.mem_cons, List.mem_append] at hmem
  rcases hmem with hm | hm | hm
  · cases hm
  · simp at hm
  · exact notMem_indexText indexes (by decide) hm

/-- Whatever the key is, the last piece of an entry ends in its numbers. -/
theorem entry_getLast {g : String × List ℤ} (h : g.2 ≠ []) :
    ∃ loc, (split " ; " (entryText g)).getLast? = some loc ∧ EndsInSpots loc g.2 := by
  have hchars : (entryText g).toList =
      (g.1.toList ++ [' ']) ++ '>' :: (" Spot ".toList ++ (indexText g.2).toList) := by
    simp [entryText]
  obtain ⟨u, hu⟩ := getLast_split (by decide) (by decide) (not_infix_numbers g.2)
    (g.1.toList ++ [' '])
  refine ⟨String.ofList (u ++ '>' :: (" Spot ".toList ++ (indexText g.2).toList)), ?_, h, ?_⟩
  · rw [split, hchars, List.getLast?_map, hu]
    rfl
  · exact ⟨u ++ ['>', ' '], by simp⟩

theorem entry_last (g : String × List ℤ) (h : g.2 ≠ []) :
    ∃ u c, (entryText g).toList = u ++ [c] ∧ c ∉ " ; ".toList := by
  obtain ⟨u, c, hu, hc⟩ := indexText_last h
  refine ⟨(g.1 ++ " > Spot ").toList ++ u, c, by simp [entryText, hu], ?_⟩
  intro hin
  have hcases : c = ' ' ∨ c = ';' ∨ c = ' ' := by simpa using hin
  rcases hcases with hcs | hcs | hcs <;> exact hc.ne (by decide) (by decide) hcs

/-! ## The names -/

/-- No separator stands in the names, and none arises where they meet the text
around them. -/
structure Legible (cabinet shelf : String) : Prop where
  cabinet_pieces : contains " ; " (cabinet ++ " ") = false
  cabinet_parts : contains " > " (cabinet ++ " ") = false
  shelf_pieces : contains " ; " (" " ++ shelf ++ " ") = false
  shelf_parts : contains " > " (shelf ++ " ") = false

variable {cabinet shelf : String}

/-- The characters of an entry around its two structural `>`. -/
theorem entryText_toList (cabinet shelf : String) (indexes : List ℤ) :
    (entryText (cabinet ++ " > " ++ shelf, indexes)).toList =
      (cabinet ++ " ").toList ++ '>' :: ((" " ++ shelf ++ " ").toList ++
        '>' :: (" Spot ".toList ++ (indexText indexes).toList)) := by
  simp [entryText]

theorem infix_entryText {indexes : List ℤ} :
    " ; ".toList <:+: (entryText (cabinet ++ " > " ++ shelf, indexes)).toList ↔
      " ; ".toList <:+: (cabinet ++ " ").toList ∨ " ; ".toList <:+: (" " ++ shelf ++ " ").toList := by
  rw [entryText_toList, infix_append_cons (by decide), infix_append_cons (by decide)]
  have hnumbers : ¬" ; ".toList <:+: " Spot ".toList ++ (indexText indexes).toList := fun hin =>
    not_infix_numbers indexes (hin.trans ⟨['>'], [], by simp⟩)
  tauto

theorem contains_eq_false {sep s : String} : contains sep s = false ↔ ¬sep.toList <:+: s.toList := by
  rw [Library.contains, ← containsChars_iff, Bool.not_eq_true]

theorem ahead_of_contains {name : String} (h : contains " > " (name ++ " ") = false) :
    Ahead " > ".toList name.toList := by
  have hin := contains_eq_false.mp h
  rw [String.toList_append] at hin
  exact (ahead_blanks_iff (by decide)).mpr hin

/-- An entry with legible names is one piece. -/
theorem Legible.split_entry (h : Legible cabinet shelf) (indexes : List ℤ) :
    split " ; " (entryText (cabinet ++ " > " ++ shelf, indexes)) =
      [entryText (cabinet ++ " > " ++ shelf, indexes)] := by
  rw [split, splitFrom_zero_whole, List.map_singleton, String.ofList_toList]
  rw [infix_entryText, not_or]
  exact ⟨contains_eq_false.mp h.cabinet_pieces, contains_eq_false.mp h.shelf_pieces⟩

theorem Legible.split_parts (h : Legible cabinet shelf) (indexes : List ℤ) :
    split " > " (entryText (cabinet ++ " > " ++ shelf, indexes)) =
      [cabinet, shelf, "Spot " ++ indexText indexes] := by
  have hchars : (entryText (cabinet ++ " > " ++ shelf, indexes)).toList =
      cabinet.toList ++ " > ".toList ++ (shelf.toList ++ " > ".toList ++
        ("Spot " ++ indexText indexes).toList) := by
    simp [entryText]
  have hspot : ¬" > ".toList <:+: ("Spot " ++ indexText indexes).toList := by
    intro hin
    have hmem : '>' ∈ ("Spot " ++ indexText indexes).toList := hin.subset (by decide)
    rw [String.toList_append, List.mem_append] at hmem
    rcases hmem with hm | hm
    · exact absurd hm (by decide)
    · exact notMem_indexText indexes (by decide) hm
  rw [split, hchars, splitFrom_zero_cut (by decide) (ahead_of_contains h.cabinet_parts),
    splitFrom_zero_cut (by decide) (ahead_of_contains h.shelf_parts), splitFrom_zero_whole hspot]
  simp only [List.map_cons, List.map_nil, String.ofList_toList]

/-- The names come back without the blanks around them. -/
theorem Legible.sectionOf (h : Legible cabinet shelf) {indexes : List ℤ} (hne : indexes ≠ []) :
    sectionOf (entryText (cabinet ++ " > " ++ shelf, indexes)) = (trim cabinet, trim shelf) := by
  rw [Pages.sectionOf, if_neg (entry_endsInSpots hne).ne_unassigned, h.split_parts]
  rfl

/-- The picker counts the numbers of an entry. -/
theorem Legible.segmentSpots (h : Legible cabinet shelf) {indexes : List ℤ} (hne : indexes ≠ []) :
    segmentSpots (entryText (cabinet ++ " > " ++ shelf, indexes)) = indexes.length := by
  have hnot : trim (entryText (cabinet ++ " > " ++ shelf, indexes)) ≠ "Unassigned" := by
    intro he
    have hmem : '>' ∈ trimChars (entryText (cabinet ++ " > " ++ shelf, indexes)).toList :=
      mem_trimChars (by decide) (by rw [entryText_toList]; simp)
    have hchars := congrArg String.toList he
    rw [trim, String.toList_ofList] at hchars
    rw [hchars] at hmem
    exact absurd hmem (by decide)
  have hpart : trim ("Spot " ++ indexText indexes) = "Spot " ++ indexText indexes := by
    obtain ⟨u, c, hu, hc⟩ := indexText_last hne
    rw [trim, ← List.nil_append ("Spot " ++ indexText indexes).toList,
      trimChars_append (by simp), String.ofList_toList]
    · intro c hc
      obtain rfl : 'S' = c := by simpa using hc
      decide
    · intro c' hc'
      rw [String.toList_append, hu, ← List.append_assoc, List.getLast?_concat] at hc'
      cases hc'
      exact hc.not_blank
  have hstart : startsWith "Spot " ("Spot " ++ indexText indexes) = true := by
    simp [startsWith]
  have hreplace : replaceFirst "Spot " "" ("Spot " ++ indexText indexes) = indexText indexes := by
    simp [replaceFirst, replaceFirstChars]
  have hcount : (split "," (indexText indexes)).length = indexes.length := by
    have hchars := congrArg List.length (splitFrom_indexText hne (p := []) (by simp))
    simpa [split] using hchars
  rw [Pages.segmentSpots, if_neg hnot, h.split_parts]
  simp only [List.getLastD_cons, List.getLastD_nil, hpart, hstart, if_true, hreplace, hcount]

/-! ## The whole text -/

/-- The entries of a wine, in the order in which they stand in the text. -/
def entries (groups : List (String × List ℤ)) : List String := sortStrings (groups.map entryText)

theorem entries_perm (groups : List (String × List ℤ)) :
    (entries groups).Perm (groups.map entryText) := List.perm_insertionSort _ _

/-- A text that joins pieces which end in foreign characters. -/
theorem locationsOf_join {wine : WineModel} {texts : List String} (hne : texts ≠ [])
    (hlast : ∀ s ∈ texts, ∃ u c, s.toList = u ++ [c] ∧ c ∉ " ; ".toList)
    (hloc : wine.cellarLocation = some (join " ; " texts)) :
    locationsOf wine = texts.flatMap (split " ; ") := by
  have hempty : join " ; " texts ≠ "" := by
    refine join_ne_empty hne ?_
    intro s hs he
    obtain ⟨u, c, hu, -⟩ := hlast s hs
    simp [he] at hu
  rw [← split_join (by decide) hne hlast, locationsOf, hloc]
  exact if_neg hempty

/-- So does `Unassigned` behind such pieces. -/
theorem last_of_unassigned {texts : List String}
    (hlast : ∀ s ∈ texts, ∃ u c, s.toList = u ++ [c] ∧ c ∉ " ; ".toList) :
    ∀ s ∈ texts ++ ["Unassigned"], ∃ u c, s.toList = u ++ [c] ∧ c ∉ " ; ".toList := by
  intro s hs
  rcases List.mem_append.mp hs with hin | hin
  · exact hlast s hin
  · obtain rfl := List.mem_singleton.mp hin
    exact ⟨"Unassigne".toList, 'd', by decide, by decide⟩

/-- The pieces of the text: those of each entry, and `Unassigned` at the end when
bottles are left. -/
theorem locationsOf_eq {wine : WineModel} {groups : List (String × List ℤ)} (hne : groups ≠ [])
    (hfilled : ∀ g ∈ groups, g.2 ≠ []) {more : Prop} [Decidable more]
    (hloc : wine.cellarLocation = some (if more then join " ; " (entries groups) ++ " ; Unassigned"
      else join " ; " (entries groups))) :
    locationsOf wine = (entries groups).flatMap (split " ; ") ++
      if more then ["Unassigned"] else [] := by
  have hentries : entries groups ≠ [] := by
    intro h
    have hlen := (entries_perm groups).length_eq
    rw [h, List.length_map, List.length_nil] at hlen
    exact hne (List.length_eq_zero_iff.mp hlen.symm)
  have hlast : ∀ s ∈ entries groups, ∃ u c, s.toList = u ++ [c] ∧ c ∉ " ; ".toList := by
    intro s hs
    obtain ⟨g, hg, rfl⟩ := List.mem_map.mp ((entries_perm groups).mem_iff.mp hs)
    exact entry_last g (hfilled g hg)
  by_cases hmore : more
  · rw [if_pos hmore] at hloc ⊢
    rw [show " ; Unassigned" = " ; " ++ "Unassigned" from rfl, ← String.append_assoc,
      ← join_concat _ _ hentries] at hloc
    rw [locationsOf_join (by simp) (last_of_unassigned hlast) hloc, List.flatMap_append]
    rfl
  · rw [if_neg hmore] at hloc ⊢
    rw [locationsOf_join hentries hlast hloc, List.append_nil]

end WineCellar.Pages
