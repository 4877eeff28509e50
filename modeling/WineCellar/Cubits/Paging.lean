import WineCellar.Cubits.WineSearch

/-!
# Pages of one search, with failing requests

Calls that do not overlap: a call is made only when the request of the one
before it has been answered. A request may fail. `loadMoreWines` moves the offset
before its request and leaves it there when the request fails, and a failed
`searchWines` keeps the wines of the search before it, so a later page may be
added at the wrong place.
-/

namespace WineCellar.Cubits.WineSearch

open Library

variable {W : Type*} (results : String → List W)

/-- No call is made while a request is in flight. -/
def NonOverlapping (s : Cubit W) : Event → Prop
  | .answer _ _ => True
  | .searchWines _ | .loadMoreWines => s.inFlight = []

instance (s : Cubit W) (e : Event) : Decidable (NonOverlapping s e) :=
  match e with
  | .answer _ _ => isTrue trivial
  | .searchWines _ | .loadMoreWines =>
    decidable_of_iff (s.inFlight.isEmpty = true) List.isEmpty_iff

def SearchState.isSuccess : SearchState W → Bool
  | .success _ _ => true
  | _ => false

/-- A page is asked for only while a search is on the screen, and one that
arrives starts where the wines on the screen end: no earlier request for a page
of this search has failed. -/
def Continues (s : Cubit W) : Event → Prop
  | .searchWines _ => True
  | .loadMoreWines => refusesMore s = true ∨ s.state.isSuccess = true
  | .answer i failure => ∀ request ∈ s.inFlight[i]?, request.more = true → failure = none →
      s.currentWines.length = s.currentOffset

instance (s : Cubit W) (e : Event) : Decidable (Continues s e) :=
  match e with
  | .searchWines _ => isTrue trivial
  | .loadMoreWines => inferInstanceAs (Decidable (_ ∨ _))
  | .answer i failure =>
    inferInstanceAs (Decidable (∀ request ∈ s.inFlight[i]?, request.more = true → failure = none → _))

/-- At most the request of the call under way is in flight. -/
inductive CallPhase (s : Cubit W) : Prop
  | idle (hflight : s.inFlight = [])
  | searching (hflight : s.inFlight = [⟨s.lastQuery, 0, false, s.searches⟩])
      (hpos : 0 < s.searches)
  | loadingMore (hflight : s.inFlight = [⟨s.lastQuery, s.currentOffset, true, s.searches⟩])
      (hmore : s.isLastPage = false) (hshown : s.state.isSuccess = true)

/-- The list on the screen against the results of the present query. -/
structure Shown (s : Cubit W) (wines : List W) (isLastPage : Bool) : Prop where
  wines_eq : wines = s.currentWines
  last_eq : isLastPage = s.isLastPage
  begins : wines <+: results s.lastQuery
  whole : isLastPage = true → wines = results s.lastQuery
  searched : 0 < s.searches

structure PagingInvariant (s : Cubit W) : Prop where
  phase : CallPhase s
  shown : ∀ wines isLastPage, s.state = .success wines isLastPage →
    Shown results s wines isLastPage

theorem initial_paging : PagingInvariant results (initial : Cubit W) where
  phase := .idle rfl
  shown := by
    intro wines isLastPage h
    cases h

theorem searchWines_paging {s : Cubit W} (hidle : s.inFlight = []) (query : String) :
    PagingInvariant results (searchWines query s) where
  phase := by
    refine .searching ?_ (Nat.succ_pos _)
    simp [searchWines, hidle]
  shown := by
    intro wines isLastPage h
    cases h

theorem loadMoreWines_paging {s : Cubit W} (hs : PagingInvariant results s)
    (hidle : s.inFlight = []) (hg : refusesMore s = true ∨ s.state.isSuccess = true) :
    PagingInvariant results (loadMoreWines s) := by
  unfold loadMoreWines
  split_ifs with hrefuse
  · exact hs
  have hmore : s.isLastPage = false := by
    simp only [refusesMore, Bool.or_eq_true, not_or, Bool.not_eq_true] at hrefuse
    exact hrefuse.1.2
  refine ⟨.loadingMore ?_ hmore (hg.resolve_left hrefuse), ?_⟩
  · simp [hidle]
  · intro wines isLastPage h
    obtain ⟨hwines, hlast, hbegins, hwhole, hpos⟩ := hs.shown wines isLastPage h
    exact ⟨hwines, hlast, hbegins, hwhole, hpos⟩

/-- The answer to a search: its first page, or the error. -/
theorem searchAnswered_paging {s : Cubit W} (hidle : s.inFlight = []) (hpos : 0 < s.searches)
    (failure : Option String) :
    PagingInvariant results
      (answered results ⟨s.lastQuery, 0, false, s.searches⟩ failure s) := by
  cases failure with
  | some message =>
    refine ⟨.idle hidle, ?_⟩
    intro wines isLastPage h
    cases h
  | none =>
    simp only [answered, searchAnswered, serve_first, Bool.false_eq_true, if_false]
    refine ⟨.idle hidle, ?_⟩
    intro wines isLastPage h
    cases h
    refine ⟨rfl, rfl, List.take_prefix _ _, ?_, hpos⟩
    intro hlast
    simp only [decide_eq_true_eq, List.length_take] at hlast
    exact List.take_of_length_le (by omega)

/-- A list of `n` wines that begins the results, with the page asked for at `n`. -/
theorem prefix_page {query : String} {wines : List W} (h : wines <+: results query)
    (search : ℕ) :
    wines ++ serve results ⟨query, wines.length, true, search⟩ =
      (results query).take (wines.length + 20) := by
  have htake : wines = (results query).take wines.length := List.prefix_iff_eq_take.mp h
  rw [serve, List.take_add, ← htake]

/-- A page that arrives where the list ends extends it. -/
theorem nextPage_paging {s : Cubit W} (hidle : s.inFlight = []) (hmore : s.isLastPage = false)
    (hlength : s.currentWines.length = s.currentOffset)
    (hs : Shown results s s.currentWines s.isLastPage) :
    PagingInvariant results
      (answered results ⟨s.lastQuery, s.currentOffset, true, s.searches⟩ none s) := by
  have hpage := prefix_page results hs.begins s.searches
  rw [hlength] at hpage
  have hshort : (serve results ⟨s.lastQuery, s.currentOffset, true, s.searches⟩).length < 20 →
      (results s.lastQuery).length ≤ s.currentOffset + 20 := by
    intro h
    simp only [serve, List.length_take, List.length_drop] at h
    omega
  have hbegins : s.currentWines ++
      serve results ⟨s.lastQuery, s.currentOffset, true, s.searches⟩ <+: results s.lastQuery := by
    rw [hpage]
    exact List.take_prefix _ _
  have hwhole (h : (serve results ⟨s.lastQuery, s.currentOffset, true, s.searches⟩).length < 20) :
      s.currentWines ++ serve results ⟨s.lastQuery, s.currentOffset, true, s.searches⟩ =
        results s.lastQuery := by
    rw [hpage]
    exact List.take_of_length_le (hshort h)
  simp only [answered, moreAnswered, if_true]
  split_ifs with hempty hlast
  · refine ⟨.idle hidle, ?_⟩
    intro wines isLastPage h
    cases h
    refine ⟨rfl, rfl, hs.begins, ?_, hs.searched⟩
    intro _
    rw [List.isEmpty_iff.mp hempty, List.append_nil] at hwhole
    exact hwhole (by simp)
  · refine ⟨.idle hidle, ?_⟩
    intro wines isLastPage h
    cases h
    exact ⟨rfl, rfl, hbegins, fun _ => hwhole hlast, hs.searched⟩
  · refine ⟨.idle hidle, ?_⟩
    intro wines isLastPage h
    cases h
    refine ⟨rfl, rfl, hbegins, ?_, hs.searched⟩
    intro h
    rw [hmore] at h
    cases h

/-- A page that does not arrive leaves the list as it was. -/
theorem failedPage_paging {s : Cubit W} (hidle : s.inFlight = [])
    (hs : Shown results s s.currentWines s.isLastPage) (query message : String)
    (offset search : ℕ) :
    PagingInvariant results
      (answered results ⟨query, offset, true, search⟩ (some message) s) := by
  refine ⟨.idle hidle, ?_⟩
  intro wines isLastPage h
  cases h
  exact ⟨rfl, rfl, hs.begins, hs.whole, hs.searched⟩

theorem PagingInvariant.shown_current {s : Cubit W} (hs : PagingInvariant results s)
    (h : s.state.isSuccess = true) : Shown results s s.currentWines s.isLastPage := by
  cases hstate : s.state with
  | success wines isLastPage =>
    have hshown := hs.shown wines isLastPage hstate
    have hwines := hshown.wines_eq
    have hlast := hshown.last_eq
    subst hwines hlast
    exact hshown
  | initial | loading | error => simp [hstate, SearchState.isSuccess] at h

theorem answer_paging {s : Cubit W} (hs : PagingInvariant results s) {i : ℕ} {request : Request}
    {failure : Option String} (hi : s.inFlight[i]? = some request)
    (hg : request.more = true → failure = none → s.currentWines.length = s.currentOffset) :
    PagingInvariant results
      (answered results request failure { s with inFlight := s.inFlight.eraseIdx i }) := by
  -- the request answered is the only one in flight
  have honly : ∀ other, s.inFlight = [other] →
      request = other ∧ ({ s with inFlight := s.inFlight.eraseIdx i } : Cubit W).inFlight = [] := by
    intro other hflight
    rw [hflight] at hi
    cases i with
    | zero => simp_all
    | succ i => simp at hi
  cases hs.phase with
  | idle hflight => simp [hflight] at hi
  | searching hflight hpos =>
    obtain ⟨rfl, hidle⟩ := honly _ hflight
    exact searchAnswered_paging results
      (s := { s with inFlight := s.inFlight.eraseIdx i }) hidle hpos failure
  | loadingMore hflight hmore hsuccess =>
    obtain ⟨rfl, hidle⟩ := honly _ hflight
    have hshown := hs.shown_current results hsuccess
    have hshown' : Shown results { s with inFlight := s.inFlight.eraseIdx i }
        s.currentWines s.isLastPage :=
      ⟨rfl, rfl, hshown.begins, hshown.whole, hshown.searched⟩
    cases failure with
    | none => exact nextPage_paging results hidle hmore (hg rfl rfl) hshown'
    | some message => exact failedPage_paging results hidle hshown' ..

theorem step_paging (s : Cubit W) (e : Event) (t : Cubit W)
    (hs : PagingInvariant results s) (hg : NonOverlapping s e ∧ Continues s e)
    (h : step results s e = some t) : PagingInvariant results t := by
  obtain ⟨hfree, hcont⟩ := hg
  cases e with
  | searchWines query =>
    obtain rfl := Option.some.inj h
    exact searchWines_paging results hfree query
  | loadMoreWines =>
    obtain rfl := Option.some.inj h
    exact loadMoreWines_paging results hs hfree hcont
  | answer i failure =>
    obtain ⟨request, hi, rfl⟩ := Option.map_eq_some_iff.mp h
    exact answer_paging results hs hi (hcont request hi)

theorem run_searches {s t : Cubit W} {es : List Event} (h : run (step results) s es = some t) :
    t.searches = s.searches + (es.filterMap Event.query).length := by
  induction es generalizing s with
  | nil =>
    obtain rfl := Option.some.inj h
    rfl
  | cons e es ih =>
    obtain ⟨u, hu, hrun⟩ := (run_cons_eq_some _).mp h
    rw [ih hrun]
    cases e with
    | searchWines query =>
      obtain rfl := Option.some.inj hu
      simp only [searchWines, List.filterMap_cons, Event.query, List.length_cons]
      omega
    | loadMoreWines =>
      obtain rfl := Option.some.inj hu
      unfold loadMoreWines
      split_ifs <;> simp [List.filterMap_cons, Event.query]
    | answer i failure =>
      obtain ⟨request, hi, rfl⟩ := Option.map_eq_some_iff.mp hu
      obtain ⟨-, -, hsearches, -⟩ :=
        answered_frame results request failure { s with inFlight := s.inFlight.eraseIdx i }
      rw [hsearches]
      simp [List.filterMap_cons, Event.query]

/-- Calls that do not overlap, with any pattern of failures: as long as each page
that arrives continues the list, what is shown begins the results of the last
query, and the last page is announced only when the list is whole. -/
theorem pages_without_gaps (es : List Event) (t : Cubit W)
    (hrun : run (step results) initial es = some t)
    (hcalls : Guarded (step results) NonOverlapping initial es)
    (hcontinues : Guarded (step results) Continues initial es)
    (wines : List W) (isLastPage : Bool) (hstate : t.state = .success wines isLastPage) :
    ∃ query, lastSearch es = some query ∧ wines <+: results query ∧
      (isLastPage = true → wines = results query) := by
  have hinv := run_invariant_guarded (step_paging results) (initial_paging results)
    (hcalls.and hcontinues) hrun
  have hshown := hinv.shown wines isLastPage hstate
  have hsome : ∃ query, lastSearch es = some query := by
    have hcount := run_searches results hrun
    have hpos := hshown.searched
    have hne : es.filterMap Event.query ≠ [] := by
      intro hnil
      simp [hnil, initial] at hcount
      omega
    exact ⟨_, List.getLast?_eq_some_getLast hne⟩
  obtain ⟨query, hquery⟩ := hsome
  obtain ⟨hlast, -⟩ := run_lastQuery results hrun
  rw [hquery, Option.getD_some] at hlast
  refine ⟨query, hquery, ?_, ?_⟩
  · rw [← hlast]
    exact hshown.begins
  · rw [← hlast]
    exact hshown.whole

/-- A server with sixty wines for every query. -/
def sixtyWines : String → List ℕ := fun _ => List.range 60

theorem pages_without_gaps_twice :
    ∃ t, run (step sixtyWines) initial
        [.searchWines "a", .answer 0 none, .loadMoreWines, .answer 0 none] = some t ∧
      t.state = .success (List.range 40) false ∧
      ∃ query, some "a" = some query ∧ List.range 40 <+: sixtyWines query ∧
        (false = true → List.range 40 = sixtyWines query) :=
  ⟨_, rfl, rfl, pages_without_gaps sixtyWines
    [.searchWines "a", .answer 0 none, .loadMoreWines, .answer 0 none] _ rfl
    (by decide) (by decide) (List.range 40) false rfl⟩

/-- The second page fails and the third is shown after the first. -/
theorem failed_page_skipped :
    ¬ ∀ (es : List Event) (t : Cubit ℕ) (wines : List ℕ) (isLastPage : Bool),
      run (step sixtyWines) initial es = some t →
      Guarded (step sixtyWines) NonOverlapping initial es →
      t.state = .success wines isLastPage →
      ∃ query, lastSearch es = some query ∧ wines <+: sixtyWines query ∧
        (isLastPage = true → wines = sixtyWines query) := by
  intro h
  obtain ⟨query, hquery, hbegins, -⟩ := h
    [.searchWines "a", .answer 0 none, .loadMoreWines, .answer 0 (some "timeout"),
      .loadMoreWines, .answer 0 none] _ (List.range 20 ++ (List.range 60).drop 40) false
    rfl (by decide) rfl
  obtain rfl := Option.some.inj hquery
  revert hbegins
  decide

end WineCellar.Cubits.WineSearch
