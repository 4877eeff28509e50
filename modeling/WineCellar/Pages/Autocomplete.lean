import WineCellar.Pages.AddWineForm
import WineCellar.Pages.Search

/-!
# The fields that suggest

`AutocompleteFormField` shows the options that contain what is being typed; in a
field of several values that is the text behind the last comma. The field and its
overlay as a machine: what is shown always belongs to the text, and a tap replaces
the value being typed and no other.
-/

namespace WineCellar.Pages

open Library Database Flows

/-! ## `_AutocompleteFormFieldState` -/

/-- The text of the controller, the options of the form, and the suggestions while
the overlay is there. -/
structure Field where
  text : String
  options : List String := []
  hasFocus : Bool := false
  overlay : Option (List String) := none
  deriving DecidableEq, Repr

inductive FieldEvent where
  | focus
  | unfocus
  | edit (text : String)
  | moveCursor
  | select (option : String)
  | load (options : List String)
  deriving DecidableEq, Repr

variable (toLowerCase : String → String) (isMultiValue : Bool)

/-- `split(',').last`. -/
def lastPart (text : String) : String := (split "," text).getLast?.getD ""

/-- The values before the last comma. -/
def existing (text : String) : List String :=
  ((split "," text).dropLast.map trim).filter (· ≠ "")

def getQuery (text : String) : String :=
  toLowerCase (trim (if isMultiValue then lastPart text else text))

/-- The first six options that contain the query. -/
def matching (text : String) (options : List String) : List String :=
  (options.filter fun o => contains (getQuery toLowerCase isMultiValue text) (toLowerCase o)).take 6

def onTextChanged (f : Field) : Field :=
  if !f.hasFocus then f
  else if getQuery toLowerCase isMultiValue f.text = "" then { f with overlay := none }
  else
    let suggestions := matching toLowerCase isMultiValue f.text f.options
    { f with overlay := if suggestions.isEmpty then none else some suggestions }

/-- `_selectOption`; a field of one value gives up the focus. -/
def selectOption (option : String) (f : Field) : Field :=
  if isMultiValue then
    { f with text := join ", " (existing f.text ++ [option]), overlay := none }
  else { f with text := option, overlay := none, hasFocus := false }

/-- `none` when nothing can be tapped; the form loads its options once. -/
def fieldStep (f : Field) : FieldEvent → Option Field
  | .focus => some (onTextChanged toLowerCase isMultiValue { f with hasFocus := true })
  | .unfocus => some { f with hasFocus := false, overlay := none }
  | .edit text => some (onTextChanged toLowerCase isMultiValue { f with text := text })
  | .moveCursor => some (onTextChanged toLowerCase isMultiValue f)
  | .select option =>
    if f.overlay.any fun suggestions => option ∈ suggestions then
      some (selectOption isMultiValue option f)
    else none
  | .load options => if f.options = [] then some { f with options := options } else none

/-! ## What is shown -/

variable {toLowerCase isMultiValue} {f f' : Field} {text option : String}

/-- Suggestions are shown in the focused field only, and belong to its text. -/
def Follows (toLowerCase : String → String) (isMultiValue : Bool) (f : Field) : Prop :=
  ∀ suggestions ∈ f.overlay, f.hasFocus = true ∧ suggestions ≠ [] ∧
    suggestions = matching toLowerCase isMultiValue f.text f.options

theorem onTextChanged_follows (h : f.hasFocus = true ∨ f.overlay = none) :
    Follows toLowerCase isMultiValue (onTextChanged toLowerCase isMultiValue f) := by
  unfold onTextChanged
  cases hfocus : f.hasFocus with
  | false =>
    intro suggestions hshown
    have hnone : f.overlay = none := h.resolve_left (by simp [hfocus])
    rw [Bool.not_false, if_pos rfl, hnone] at hshown
    cases hshown
  | true =>
    simp only [Bool.not_true, Bool.false_eq_true, if_false]
    split_ifs with hquery hempty
    · exact fun suggestions hshown => by cases hshown
    · exact fun suggestions hshown => by cases hshown
    · intro suggestions hshown
      obtain rfl := Option.some.inj hshown
      exact ⟨rfl, fun hnil => hempty (List.isEmpty_iff.mpr hnil), rfl⟩

/-- The overlay is there in a focused field only. -/
theorem Follows.focused (h : Follows toLowerCase isMultiValue f) :
    f.hasFocus = true ∨ f.overlay = none := by
  cases hshown : f.overlay with
  | none => exact .inr rfl
  | some suggestions => exact .inl (h suggestions hshown).1

theorem fieldStep_follows {e : FieldEvent} (h : Follows toLowerCase isMultiValue f)
    (hst : fieldStep toLowerCase isMultiValue f e = some f') :
    Follows toLowerCase isMultiValue f' := by
  cases e with
  | focus =>
    cases hst
    exact onTextChanged_follows (.inl rfl)
  | unfocus =>
    cases hst
    intro suggestions hshown
    cases hshown
  | edit text =>
    cases hst
    exact onTextChanged_follows h.focused
  | moveCursor =>
    cases hst
    exact onTextChanged_follows h.focused
  | select option =>
    simp only [fieldStep] at hst
    split_ifs at hst
    cases hst
    intro suggestions hshown
    unfold selectOption at hshown
    split_ifs at hshown <;> cases hshown
  | load options =>
    simp only [fieldStep] at hst
    split_ifs at hst with hempty
    cases hst
    -- without options nothing has been shown
    intro suggestions hshown
    obtain ⟨-, hne, hmatching⟩ := h suggestions hshown
    rw [hempty] at hmatching
    exact absurd hmatching hne

/-! ## What a tap leaves -/

/-- The values of a text are those before the last comma and those behind it. -/
theorem listParts_existing (text : String) :
    listParts text = existing text ++ listParts (lastPart text) := by
  have hne : split "," text ≠ [] := by
    rw [split, ne_eq, List.map_eq_nil_iff]
    exact split_ne_nil (by simp) _
  have hlast : lastPart text = (split "," text).getLast hne := by
    rw [lastPart, List.getLast?_eq_getLast_of_ne_nil hne, Option.getD_some]
  have hcomma : ',' ∉ (lastPart text).toList := by
    rw [hlast]
    obtain ⟨part, hpart, hchars⟩ := List.mem_map.mp (List.getLast_mem hne)
    rw [← hchars, String.toList_ofList]
    exact not_mem_of_mem_splitFrom hpart
  have hwhole : split "," (lastPart text) = [lastPart text] := by
    have hin : ¬[','] <:+: (lastPart text).toList := fun h => hcomma (h.subset (by simp))
    have hchars : ",".toList = [','] := rfl
    rw [split, hchars, splitFrom_zero_whole hin, List.map_singleton, String.ofList_toList]
  have hsplit : split "," text = (split "," text).dropLast ++ [lastPart text] := by
    rw [hlast]
    exact (List.dropLast_append_getLast hne).symm
  rw [listParts, listParts, hwhole, hsplit, List.map_append, List.filter_append]
  rfl

theorem listPart_existing : ∀ s ∈ existing text, ListPart s := by
  intro s hs
  have hmem : s ∈ listParts text := by
    rw [listParts_existing]
    exact List.mem_append_left _ hs
  exact listPart_of_mem hmem

theorem flatMap_listParts {texts : List String} (h : ∀ s ∈ texts, ListPart s) :
    texts.flatMap listParts = texts := by
  induction texts with
  | nil => rfl
  | cons s texts ih =>
    obtain ⟨hs, htexts⟩ := List.forall_mem_cons.mp h
    rw [List.flatMap_cons, hs.listParts, ih htexts, List.singleton_append]

theorem listParts_selectOption (option : String) (f : Field) :
    listParts (selectOption true option f).text = existing f.text ++ listParts option := by
  have htext : (selectOption true option f).text = join ", " (existing f.text ++ [option]) := rfl
  rw [htext, listParts_joined, List.flatMap_append, flatMap_listParts listPart_existing,
    List.flatMap_singleton]

/-- What can be tapped is an option that contains what is being typed. -/
theorem Follows.mem_options (h : Follows toLowerCase isMultiValue f)
    (hst : fieldStep toLowerCase isMultiValue f (.select option) = some f') :
    option ∈ f.options ∧
      contains (getQuery toLowerCase isMultiValue f.text) (toLowerCase option) = true ∧
      f' = selectOption isMultiValue option f := by
  simp only [fieldStep] at hst
  split_ifs at hst with hshown
  cases hoverlay : f.overlay with
  | none => simp [hoverlay] at hshown
  | some suggestions =>
    obtain ⟨-, -, rfl⟩ := h suggestions hoverlay
    rw [hoverlay, Option.any_some, decide_eq_true_eq] at hshown
    have hmatching := List.mem_filter.mp (List.mem_of_mem_take hshown)
    exact ⟨hmatching.1, hmatching.2, (Option.some.inj hst).symm⟩

/-- After every run of a field: suggestions are shown only while it has the focus,
and are the first six options that contain what is being typed; a tap puts the
option in the place of what is being typed and leaves the other values. -/
theorem taps_replace_typed (toLowerCase : String → String) (isMultiValue : Bool)
    {events : List FieldEvent}
    (hrun : run (fieldStep toLowerCase isMultiValue) { text := text } events = some f) :
    Follows toLowerCase isMultiValue f ∧
      ∀ option f', fieldStep toLowerCase isMultiValue f (.select option) = some f' →
        option ∈ f.options ∧
          contains (getQuery toLowerCase isMultiValue f.text) (toLowerCase option) = true ∧
          (isMultiValue = false → f'.text = option) ∧
          (isMultiValue = true → listParts f.text = existing f.text ++ listParts (lastPart f.text) ∧
            listParts f'.text = existing f.text ++ listParts option) := by
  have hstart : Follows toLowerCase isMultiValue { text := text } := by
    intro suggestions hshown
    cases hshown
  have hfollows := run_invariant (fun _ _ _ h hst => fieldStep_follows h hst) hstart hrun
  refine ⟨hfollows, fun option f' hst => ?_⟩
  obtain ⟨hmem, hcontains, rfl⟩ := hfollows.mem_options hst
  refine ⟨hmem, hcontains, ?_, ?_⟩
  · rintro rfl
    rfl
  · rintro rfl
    exact ⟨listParts_existing f.text, listParts_selectOption option f⟩

theorem taps_replace_typed_grapes :
    ∃ f, run (fieldStep String.toLower true) { text := "Merlot" }
        [.focus, .load ["Merlot", "Nebbiolo"], .edit "Merlot, Nebb"] = some f ∧
      f.overlay = some ["Nebbiolo"] ∧
      ∀ f', fieldStep String.toLower true f (.select "Nebbiolo") = some f' →
        listParts f'.text = existing f.text ++ listParts "Nebbiolo" := by
  have hrun : (run (fieldStep String.toLower true) { text := "Merlot" }
      [.focus, .load ["Merlot", "Nebbiolo"], .edit "Merlot, Nebb"]).map Field.overlay =
        some (some ["Nebbiolo"]) := by
    decide +kernel
  obtain ⟨f, hf, hshown⟩ := Option.map_eq_some_iff.mp hrun
  refine ⟨f, hf, hshown, fun f' hst => ?_⟩
  exact (((taps_replace_typed String.toLower true hf).2 _ f' hst).2.2.2 rfl).2

/-! ## The grapes of the form -/

variable {wine : WineModel} {db db' : Tables}

/-- A value is typed behind those that are there and one of the suggestions is
tapped. -/
def pick (toLowerCase : String → String) (f : Field) (e : String × String) : Option Field :=
  if existing e.1 = listParts f.text then
    (fieldStep toLowerCase true f (.edit e.1)).bind fun f => fieldStep toLowerCase true f (.select e.2)
  else none

theorem pick_listParts {e : String × String} (h : pick toLowerCase f e = some f') :
    listParts f'.text = listParts f.text ++ listParts e.2 := by
  unfold pick at h
  split_ifs at h with hbehind
  obtain ⟨g, hedit, hselect⟩ := Option.bind_eq_some_iff.mp h
  have htext : g.text = e.1 := by
    cases hedit
    unfold onTextChanged
    split_ifs <;> rfl
  simp only [fieldStep] at hselect
  split_ifs at hselect
  cases hselect
  rw [listParts_selectOption, htext, hbehind]

theorem picks_listParts {picks : List (String × String)}
    (hrun : run (pick toLowerCase) f picks = some f') :
    listParts f'.text = listParts f.text ++ picks.flatMap fun e => listParts e.2 := by
  induction picks generalizing f with
  | nil =>
    cases hrun
    exact (List.append_nil _).symm
  | cons e picks ih =>
    obtain ⟨g, hpick, hrun⟩ := (run_cons_eq_some _).mp hrun
    rw [ih hrun, pick_listParts hpick, List.flatMap_cons, List.append_assoc]

theorem saveWine_listed (h : saveWine wine db = some db') : Listed wine db' := by
  obtain ⟨row, -, rfl⟩ := saveWine_eq h
  have hlisted := upsertAllWines_listed row wine db
  exact ⟨hlisted.wineries, hlisted.types, hlisted.countries, hlisted.grapes⟩

theorem mem_getFilterOptions_grapes {name : String} :
    name ∈ (getFilterOptions db).grapes ↔ name ∈ db.grapes := mem_orderByName

/-- Values typed and tapped one after the other are the grapes of the wine that is
saved, behind those of the field in their order, and are suggested from then on. -/
theorem picked_grapes_saved (toLowerCase : String → String) {picks : List (String × String)}
    {form : Form} {wineId bottleId : String} (hne : picks ≠ []) (hparts : ∀ e ∈ picks, ListPart e.2)
    (hrun : run (pick toLowerCase) f picks = some f') (hform : form.grapes = f'.text)
    (hsave : saveWine (form.newWine wineId bottleId) db = some db') :
    (form.newWine wineId bottleId).grapes = some (listParts f.text ++ picks.map Prod.snd) ∧
      ∀ name ∈ listParts f.text ++ picks.map Prod.snd, name ∈ (getFilterOptions db').grapes := by
  have hpicked : picks.flatMap (fun e => listParts e.2) = picks.map Prod.snd := by
    rw [← List.flatMap_map, flatMap_listParts (List.forall_mem_map.mpr hparts)]
  have hvalues : listParts form.grapes = listParts f.text ++ picks.map Prod.snd := by
    rw [hform, picks_listParts hrun, hpicked]
  have htyped : trim form.grapes ≠ "" := by
    intro hempty
    rw [← listParts_trim, hempty] at hvalues
    have hnil : listParts "" = [] := listParts_joined []
    rw [hnil] at hvalues
    exact hne (List.map_eq_nil_iff.mp (List.append_eq_nil_iff.mp hvalues.symm).2)
  have hgrapes : (form.newWine wineId bottleId).grapes =
      some (listParts f.text ++ picks.map Prod.snd) := by
    rw [newWine_grapes, grapesList_eq, if_neg htyped, listParts_trim, hvalues]
  refine ⟨hgrapes, fun name hname => ?_⟩
  have hpart : name ≠ "" := by
    rw [← hvalues] at hname
    exact (listPart_of_mem hname).1
  have hin : name ∈ (form.newWine wineId bottleId).grapes.getD [] := by
    rw [hgrapes]
    exact hname
  exact mem_getFilterOptions_grapes.mpr ((saveWine_listed hsave).grapes name hin hpart)

/-- A field with one value, and two more that are typed and tapped. -/
def merlotField : Field := { text := "Merlot", options := ["Cabernet Franc", "Nebbiolo"], hasFocus := true }

theorem picked_grapes_saved_two :
    ∃ f' db', run (pick String.toLower) merlotField
        [("Merlot, nebb", "Nebbiolo"), ("Merlot, Nebbiolo, franc", "Cabernet Franc")] = some f' ∧
      saveWine (Form.newWine { name := "Cuvée", grapes := f'.text } "w" "b") empty = some db' ∧
      "Nebbiolo" ∈ (getFilterOptions db').grapes := by
  have hrun : (run (pick String.toLower) merlotField
      [("Merlot, nebb", "Nebbiolo"), ("Merlot, Nebbiolo, franc", "Cabernet Franc")]).map Field.text =
        some "Merlot, Nebbiolo, Cabernet Franc" := by
    decide +kernel
  have hsaves : (saveWine (Form.newWine
      { name := "Cuvée", grapes := "Merlot, Nebbiolo, Cabernet Franc" } "w" "b") empty).isSome := by
    decide +kernel
  have hparts : ∀ e ∈ [("Merlot, nebb", "Nebbiolo"), ("Merlot, Nebbiolo, franc", "Cabernet Franc")],
      ListPart e.2 := by
    simp only [List.forall_mem_cons, ListPart]
    decide +kernel
  obtain ⟨f', hf, htext⟩ := Option.map_eq_some_iff.mp hrun
  rw [← htext] at hsaves
  obtain ⟨db', hdb⟩ := Option.isSome_iff_exists.mp hsaves
  have hsaved := (picked_grapes_saved String.toLower (by simp) hparts hf rfl hdb).2
  exact ⟨f', db', hf, hdb, hsaved "Nebbiolo" (by simp)⟩

end WineCellar.Pages
