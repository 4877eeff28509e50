import WineCellar.Library.Runs
import Mathlib.Tactic

/-!
# `WineSearchCubit` and the answers it waits for

`searchWines` and `loadMoreWines` each send one request and apply its answer to
the fields of the cubit as they are when it arrives. Requests carry no token, so
an answer of an earlier search is applied like one of the present search. The
machine keeps the requests in flight and lets them be answered in any order; a
request carries, as a history, the number of the search it was sent under.
-/

namespace WineCellar.Cubits.WineSearch

open Library

inductive SearchState (W : Type*) where
  | initial
  | loading
  | success (wines : List W) (isLastPage : Bool)
  | error (message : String)
  deriving DecidableEq, Repr

/-- A request to the repository: of `loadMoreWines` when `more`, else of
`searchWines`. -/
structure Request where
  query : String
  offset : ℕ
  more : Bool
  search : ℕ
  deriving DecidableEq, Repr

/-- The fields of the cubit, its state, and the requests in flight. -/
structure Cubit (W : Type*) where
  currentWines : List W
  currentOffset : ℕ
  isLastPage : Bool
  lastQuery : String
  isLoadingMore : Bool
  state : SearchState W
  inFlight : List Request
  searches : ℕ
  deriving DecidableEq, Repr

variable {W : Type*} (results : String → List W)

def initial : Cubit W where
  currentWines := []
  currentOffset := 0
  isLastPage := false
  lastQuery := ""
  isLoadingMore := false
  state := .initial
  inFlight := []
  searches := 0

/-- `searchWines` up to its request. -/
def searchWines (query : String) (s : Cubit W) : Cubit W :=
  { s with
    lastQuery := query
    currentOffset := 0
    isLastPage := false
    state := .loading
    searches := s.searches + 1
    inFlight := s.inFlight ++ [⟨query, 0, false, s.searches + 1⟩] }

def SearchState.isLoading : SearchState W → Bool
  | .loading => true
  | _ => false

/-- The guard of `loadMoreWines`. -/
def refusesMore (s : Cubit W) : Bool := s.isLoadingMore || s.isLastPage || s.state.isLoading

/-- `loadMoreWines` up to its request. -/
def loadMoreWines (s : Cubit W) : Cubit W :=
  if refusesMore s then s
  else { s with
    isLoadingMore := true
    currentOffset := s.currentOffset + 20
    inFlight := s.inFlight ++ [⟨s.lastQuery, s.currentOffset + 20, true, s.searches⟩] }

/-- `searchWines` after its request. -/
def searchAnswered (answer : Except String (List W)) (s : Cubit W) : Cubit W :=
  match answer with
  | .ok wines =>
    let isLastPage := decide (wines.length < 20)
    { s with
      currentWines := wines
      isLastPage := isLastPage
      state := .success wines isLastPage }
  | .error message => { s with state := .error message }

/-- `loadMoreWines` after its request. -/
def moreAnswered (answer : Except String (List W)) (s : Cubit W) : Cubit W :=
  match answer with
  | .ok newWines =>
    let s := if newWines.isEmpty then { s with isLastPage := true }
      else { s with
        currentWines := s.currentWines ++ newWines
        isLastPage := if newWines.length < 20 then true else s.isLastPage }
    { s with state := .success s.currentWines s.isLastPage, isLoadingMore := false }
  | .error _ => { s with state := .success s.currentWines s.isLastPage, isLoadingMore := false }

/-- The server's answer: a page of twenty of the fixed result list. -/
def serve (request : Request) : List W := ((results request.query).drop request.offset).take 20

/-- A call, or the answer to the request at a position of those in flight. -/
inductive Event where
  | searchWines (query : String)
  | loadMoreWines
  | answer (request : ℕ) (failure : Option String)
  deriving DecidableEq, Repr

/-- The answer to `request`, applied. -/
def answered (request : Request) (failure : Option String) (s : Cubit W) : Cubit W :=
  let answer := match failure with
    | some message => .error message
    | none => .ok (serve results request)
  if request.more then moreAnswered answer s else searchAnswered answer s

def step (s : Cubit W) : Event → Option (Cubit W)
  | .searchWines query => some (searchWines query s)
  | .loadMoreWines => some (loadMoreWines s)
  | .answer i failure =>
    (s.inFlight[i]?).map fun request =>
      answered results request failure { s with inFlight := s.inFlight.eraseIdx i }

/-- The request the event answers has succeeded. -/
def Event.Succeeds : Event → Prop
  | .answer _ failure => failure = none
  | _ => True

instance : DecidablePred Event.Succeeds
  | .answer _ failure => inferInstanceAs (Decidable (failure = none))
  | .searchWines _ | .loadMoreWines => isTrue trivial

def Event.query : Event → Option String
  | .searchWines query => some query
  | _ => none

/-- The query of the most recent `searchWines` call. -/
def lastSearch (es : List Event) : Option String := (es.filterMap Event.query).getLast?

/-- The present search waits for its own answer. -/
def Unanswered (s : Cubit W) : Prop :=
  ∃ request ∈ s.inFlight, request.search = s.searches ∧ request.more = false

instance (s : Cubit W) : Decidable (Unanswered s) :=
  inferInstanceAs (Decidable (∃ request ∈ s.inFlight, _ ∧ _))

/-- An answer of an earlier search arrives only while the present search waits
for its own, and no page is asked for in that time. -/
def InOrder (s : Cubit W) : Event → Prop
  | .searchWines _ => True
  | .loadMoreWines => Unanswered s → refusesMore s = true
  | .answer i _ => ∀ request ∈ s.inFlight[i]?, request.search = s.searches ∨ Unanswered s

instance (s : Cubit W) (e : Event) : Decidable (InOrder s e) :=
  match e with
  | .searchWines _ => isTrue trivial
  | .loadMoreWines => inferInstanceAs (Decidable (Unanswered s → refusesMore s = true))
  | .answer i _ =>
    inferInstanceAs (Decidable (∀ request ∈ s.inFlight[i]?, request.search = s.searches ∨ _))

/-! ## The phases of the present search -/

/-- The requests in flight of the present search. -/
def own (s : Cubit W) : List Request := s.inFlight.filter fun request => request.search = s.searches

/-- Where the present search stands: not yet made, waiting for its first page,
shown, or shown and waiting for a further page. -/
inductive Phase (s : Cubit W) : Prop
  | unsearched (hs : s.searches = 0)
  | waiting (hown : own s = [⟨s.lastQuery, 0, false, s.searches⟩]) (hoffset : s.currentOffset = 0)
  | shown (hown : own s = [])
      (hwines : s.currentWines = (results s.lastQuery).take (s.currentOffset + 20))
      (hfull : s.isLastPage = false → s.currentOffset + 20 ≤ (results s.lastQuery).length)
      (hstate : s.state = .success s.currentWines s.isLastPage)
  | paging (hown : own s = [⟨s.lastQuery, s.currentOffset, true, s.searches⟩])
      (hwines : s.currentWines = (results s.lastQuery).take s.currentOffset)

structure Invariant (s : Cubit W) : Prop where
  numbered : ∀ request ∈ s.inFlight, request.search ≤ s.searches
  paged : s.inFlight.countP Request.more = s.isLoadingMore.toNat
  phase : Phase results s

theorem initial_invariant : Invariant results (initial : Cubit W) where
  numbered := by simp [initial]
  paged := rfl
  phase := .unsearched rfl

theorem eraseIdx_of_getElem? {α : Type*} {l : List α} {i : ℕ} {a : α} (h : l[i]? = some a) :
    ∃ before after, l = before ++ a :: after ∧ l.eraseIdx i = before ++ after := by
  obtain ⟨hlt, rfl⟩ := List.getElem?_eq_some_iff.mp h
  refine ⟨l.take i, l.drop (i + 1), ?_, List.eraseIdx_eq_take_drop_succ ..⟩
  rw [List.getElem_cons_drop, List.take_append_drop]

theorem searchWines_invariant {s : Cubit W} (hs : Invariant results s) (query : String) :
    Invariant results (searchWines query s) where
  numbered := by
    intro request hr
    rcases List.mem_append.mp hr with hr | hr
    · exact (hs.numbered request hr).trans (Nat.le_succ _)
    · rw [List.mem_singleton.mp hr, searchWines]
  paged := by simp [searchWines, hs.paged]
  phase := by
    refine .waiting ?_ rfl
    have hold : s.inFlight.filter (fun request => request.search = s.searches + 1) = [] := by
      rw [List.filter_eq_nil_iff]
      intro request hr
      have := hs.numbered request hr
      simp only [decide_eq_true_eq]
      omega
    rw [own, searchWines, List.filter_append, hold]
    simp

theorem loadMoreWines_invariant {s : Cubit W} (hs : Invariant results s)
    (hg : Unanswered s → refusesMore s = true) : Invariant results (loadMoreWines s) := by
  unfold loadMoreWines
  split_ifs with hrefuse
  · exact hs
  have hidle : s.isLoadingMore = false := by
    simp only [refusesMore, Bool.or_eq_true, not_or, Bool.not_eq_true] at hrefuse
    exact hrefuse.1.1
  refine ⟨?_, ?_, ?_⟩
  · intro request hr
    rcases List.mem_append.mp hr with hr | hr
    · exact hs.numbered request hr
    · rw [List.mem_singleton.mp hr]
  · simp [hs.paged, hidle]
  · have hnone : ∀ request ∈ s.inFlight, request.more = false := by
      have hcount := hs.paged
      simp only [hidle, Bool.toNat_false, List.countP_eq_zero] at hcount
      simpa using hcount
    cases hs.phase with
    | unsearched hzero => exact .unsearched hzero
    | waiting hown =>
      have hmem : (⟨s.lastQuery, 0, false, s.searches⟩ : Request) ∈ own s := by simp [hown]
      have hin := (List.mem_filter.mp hmem).1
      exact absurd (hg ⟨_, hin, rfl, rfl⟩) hrefuse
    | shown hown hwines hfull hstate =>
      refine .paging ?_ hwines
      unfold own at hown ⊢
      simp [hown]
    | paging hown =>
      have hmem : (⟨s.lastQuery, s.currentOffset, true, s.searches⟩ : Request) ∈ own s := by
        simp [hown]
      have := hnone _ (List.mem_filter.mp hmem).1
      cases this

/-- An answer changes neither the query nor the offset nor the requests. -/
theorem answered_frame (request : Request) (failure : Option String) (s : Cubit W) :
    (answered results request failure s).lastQuery = s.lastQuery ∧
      (answered results request failure s).currentOffset = s.currentOffset ∧
      (answered results request failure s).searches = s.searches ∧
      (answered results request failure s).inFlight = s.inFlight ∧
      (answered results request failure s).isLoadingMore = (s.isLoadingMore && !request.more) := by
  unfold answered
  cases failure <;> cases hm : request.more <;> simp [searchAnswered, moreAnswered]
  split_ifs <;> simp

theorem serve_first (query : String) (search : ℕ) :
    serve results ⟨query, 0, false, search⟩ = (results query).take 20 := by
  simp [serve]

/-- The first page of the present search replaces whatever the list was. -/
theorem first_page_shown {s : Cubit W} {request : Request} (hnone : own s = [])
    (hoffset : s.currentOffset = 0)
    (hr : request = ⟨s.lastQuery, 0, false, s.searches⟩) :
    Phase results (answered results request none s) := by
  subst hr
  simp only [answered, searchAnswered, serve_first, Bool.false_eq_true, if_false]
  refine .shown hnone ?_ ?_ rfl
  · simp [hoffset]
  · intro hlast
    simp only [decide_eq_false_iff_not, not_lt, List.length_take] at hlast
    simp only [hoffset]
    omega

/-- The next page of the present search extends the list it belongs to. -/
theorem next_page_shown {s : Cubit W} {request : Request} (hnone : own s = [])
    (hwines : s.currentWines = (results s.lastQuery).take s.currentOffset)
    (hr : request = ⟨s.lastQuery, s.currentOffset, true, s.searches⟩) :
    Phase results (answered results request none s) := by
  subst hr
  have hadd : (results s.lastQuery).take (s.currentOffset + 20) =
      s.currentWines ++ serve results ⟨s.lastQuery, s.currentOffset, true, s.searches⟩ := by
    rw [hwines, serve, List.take_add]
  simp only [answered, moreAnswered, if_true]
  split_ifs with hempty hshort
  · refine .shown hnone ?_ (fun hlast => by cases hlast) rfl
    rw [List.isEmpty_iff.mp hempty, List.append_nil] at hadd
    exact hadd.symm
  · exact .shown hnone hadd.symm (fun hlast => by cases hlast) rfl
  · refine .shown hnone hadd.symm ?_ rfl
    intro _
    simp only [serve, List.length_take, List.length_drop, not_lt] at hshort
    change s.currentOffset + 20 ≤ (results s.lastQuery).length
    omega

/-- The requests of the present search once `request` is answered. -/
theorem own_eraseIdx {s : Cubit W} {i : ℕ} {request : Request}
    (hi : s.inFlight[i]? = some request) :
    (request.search = s.searches → ∀ other, own s = [other] →
      request = other ∧ own { s with inFlight := s.inFlight.eraseIdx i } = []) ∧
    (request.search ≠ s.searches →
      own { s with inFlight := s.inFlight.eraseIdx i } = own s) := by
  obtain ⟨before, after, hsplit, herase⟩ := eraseIdx_of_getElem? hi
  constructor
  · intro hcurrent other hown
    rw [own, hsplit, List.filter_append, List.filter_cons, if_pos (by simpa using hcurrent)] at hown
    rw [own, herase, List.filter_append]
    obtain ⟨hb, rfl, ha⟩ : before.filter (fun r => r.search = s.searches) = [] ∧ request = other ∧
        after.filter (fun r => r.search = s.searches) = [] := by
      cases hb : before.filter (fun r => r.search = s.searches) with
      | nil =>
        rw [hb, List.nil_append, List.cons.injEq] at hown
        exact ⟨rfl, hown⟩
      | cons r rs =>
        rw [hb] at hown
        simp at hown
    exact ⟨rfl, by rw [hb, ha, List.append_nil]⟩
  · intro hstale
    simp only [own, herase]
    rw [hsplit, List.filter_append, List.filter_append, List.filter_cons,
      if_neg (by simpa using hstale)]

theorem mem_own_of_unanswered {s : Cubit W} (h : Unanswered s) :
    ∃ request ∈ own s, request.more = false := by
  obtain ⟨request, hmem, hsearch, hmore⟩ := h
  exact ⟨request, List.mem_filter.mpr ⟨hmem, by simpa using hsearch⟩, hmore⟩

theorem answer_phase {s : Cubit W} (hs : Invariant results s) {i : ℕ} {request : Request}
    (hi : s.inFlight[i]? = some request)
    (hg : request.search = s.searches ∨ Unanswered s) :
    Phase results
      (answered results request none { s with inFlight := s.inFlight.eraseIdx i }) := by
  obtain ⟨hquery, hoffset, hsearches, hflight, -⟩ :=
    answered_frame results request none { s with inFlight := s.inFlight.eraseIdx i }
  obtain ⟨hpresent, hstale⟩ := own_eraseIdx hi
  cases hs.phase with
  | unsearched hzero => exact .unsearched (hsearches.trans hzero)
  | waiting hown hfirst =>
    by_cases hcurrent : request.search = s.searches
    · obtain ⟨hr, hnone⟩ := hpresent hcurrent _ hown
      exact first_page_shown results hnone hfirst hr
    · refine .waiting ?_ (hoffset.trans hfirst)
      rw [own, hflight, hsearches, hquery]
      exact (hstale hcurrent).trans hown
  | shown hown =>
    -- nothing of the present search is in flight, so the guard leaves no answer
    rcases hg with hcurrent | hwait
    · have hmem : request ∈ own s :=
        List.mem_filter.mpr ⟨List.mem_of_getElem? hi, by simpa using hcurrent⟩
      simp [hown] at hmem
    · obtain ⟨other, hmem, -⟩ := mem_own_of_unanswered hwait
      simp [hown] at hmem
  | paging hown hwines =>
    rcases hg with hcurrent | hwait
    · obtain ⟨hr, hnone⟩ := hpresent hcurrent _ hown
      exact next_page_shown results hnone hwines hr
    · obtain ⟨other, hmem, hmore⟩ := mem_own_of_unanswered hwait
      rw [hown, List.mem_singleton] at hmem
      simp [hmem] at hmore

theorem answer_invariant {s : Cubit W} (hs : Invariant results s) {i : ℕ} {request : Request}
    (hi : s.inFlight[i]? = some request)
    (hg : request.search = s.searches ∨ Unanswered s) :
    Invariant results
      (answered results request none { s with inFlight := s.inFlight.eraseIdx i }) := by
  obtain ⟨before, after, hsplit, herase⟩ := eraseIdx_of_getElem? hi
  obtain ⟨hquery, hoffset, hsearches, hflight, hloading⟩ :=
    answered_frame results request none { s with inFlight := s.inFlight.eraseIdx i }
  have hmem : request ∈ s.inFlight := List.mem_of_getElem? hi
  refine ⟨?_, ?_, ?_⟩
  · intro other ho
    rw [hflight] at ho
    rw [hsearches]
    exact hs.numbered other (List.mem_of_mem_eraseIdx ho)
  · have hcount := hs.paged
    rw [hflight, hloading]
    simp only [herase]
    rw [hsplit, List.countP_append, List.countP_cons] at hcount
    rw [List.countP_append]
    cases hm : request.more <;> cases hl : s.isLoadingMore <;>
      simp only [hm, hl, if_true, if_false, Bool.false_eq_true, Bool.toNat_true, Bool.toNat_false,
        Bool.and_false, Bool.and_true, Bool.not_true, Bool.not_false] at hcount ⊢ <;>
      omega
  · exact answer_phase results hs hi hg

theorem step_invariant (s : Cubit W) (e : Event) (t : Cubit W) (hs : Invariant results s)
    (hg : InOrder s e ∧ e.Succeeds) (h : step results s e = some t) : Invariant results t := by
  obtain ⟨horder, hok⟩ := hg
  cases e with
  | searchWines query =>
    obtain rfl := Option.some.inj h
    exact searchWines_invariant results hs query
  | loadMoreWines =>
    obtain rfl := Option.some.inj h
    exact loadMoreWines_invariant results hs horder
  | answer i failure =>
    obtain ⟨request, hi, rfl⟩ := Option.map_eq_some_iff.mp h
    obtain rfl : failure = none := hok
    exact answer_invariant results hs hi (horder request hi)

theorem step_lastQuery {s t : Cubit W} {e : Event} (h : step results s e = some t) :
    t.lastQuery = e.query.getD s.lastQuery ∧ s.searches ≤ t.searches ∧
      (e.query.isSome → 0 < t.searches) := by
  cases e with
  | searchWines query =>
    obtain rfl := Option.some.inj h
    exact ⟨rfl, Nat.le_succ _, fun _ => Nat.succ_pos _⟩
  | loadMoreWines =>
    obtain rfl := Option.some.inj h
    unfold loadMoreWines
    split_ifs <;> simp [Event.query]
  | answer i failure =>
    obtain ⟨request, hi, rfl⟩ := Option.map_eq_some_iff.mp h
    obtain ⟨hquery, -, hsearches, -⟩ :=
      answered_frame results request failure { s with inFlight := s.inFlight.eraseIdx i }
    rw [hquery, hsearches]
    simp [Event.query]

/-- The field `_lastQuery` is the query of the most recent search. -/
theorem run_lastQuery {s t : Cubit W} {es : List Event} (h : run (step results) s es = some t) :
    t.lastQuery = (lastSearch es).getD s.lastQuery ∧ s.searches ≤ t.searches ∧
      ((lastSearch es).isSome → 0 < t.searches) := by
  induction es generalizing s with
  | nil =>
    obtain rfl := Option.some.inj h
    simp [lastSearch]
  | cons e es ih =>
    obtain ⟨u, hu, hrun⟩ := (run_cons_eq_some _).mp h
    obtain ⟨hlast, hle, hpos⟩ := ih hrun
    obtain ⟨hlast', hle', hpos'⟩ := step_lastQuery results hu
    cases hq : e.query with
    | none =>
      have hskip : lastSearch (e :: es) = lastSearch es := by simp [lastSearch, hq]
      rw [hq, Option.getD_none] at hlast'
      rw [hskip, ← hlast']
      exact ⟨hlast, hle'.trans hle, hpos⟩
    | some query =>
      have hthis : lastSearch (e :: es) = some ((lastSearch es).getD query) := by
        simp [lastSearch, hq, List.getLast?_cons]
      rw [hq, Option.getD_some] at hlast'
      have := hpos' (by simp [hq])
      rw [hthis, Option.getD_some, ← hlast']
      exact ⟨hlast, hle'.trans hle, fun _ => by omega⟩

/-- When answers of earlier searches come in time to be replaced, what is shown
with no request in flight is a prefix of the results of the present query. -/
theorem shown_prefix_of_inOrder (es : List Event) {t : Cubit W}
    (hrun : run (step results) initial es = some t) (hok : ∀ e ∈ es, e.Succeeds)
    (horder : Guarded (step results) InOrder initial es) (hquiet : t.inFlight = [])
    {query : String} (hquery : lastSearch es = some query) {wines : List W} {isLastPage : Bool}
    (hstate : t.state = .success wines isLastPage) : wines <+: results query := by
  have hguard := horder.and (guarded_of_forall hok)
  have hinv := run_invariant_guarded (step_invariant results) (initial_invariant results)
    hguard hrun
  obtain ⟨hlast, -, hpos⟩ := run_lastQuery results hrun
  rw [hquery, Option.getD_some] at hlast
  have hown : own t = [] := by simp [own, hquiet]
  cases hinv.phase with
  | unsearched hzero =>
    have := hpos (by simp [hquery])
    omega
  | waiting hwait => simp [hown] at hwait
  | shown _ hwines _ hshown =>
    obtain ⟨rfl, -⟩ : wines = t.currentWines ∧ _ := by simpa [hstate] using hshown
    rw [hwines, hlast]
    exact List.take_prefix _ _
  | paging hpage => simp [hown] at hpage

/-- A server that knows two queries. -/
def twoQueries : String → List ℕ
  | "a" => [1]
  | "b" => [2]
  | _ => []

/-- The answer to `a` comes while `b` still waits for its own. -/
theorem shown_prefix_of_inOrder_replaced :
    ∃ t, run (step twoQueries) initial
        [.searchWines "a", .searchWines "b", .answer 0 none, .answer 0 none] = some t ∧
      t.state = .success [2] true ∧ [2] <+: twoQueries "b" := by
  refine ⟨_, rfl, rfl, ?_⟩
  exact shown_prefix_of_inOrder twoQueries
    [.searchWines "a", .searchWines "b", .answer 0 none, .answer 0 none]
    rfl (by decide) (by decide) rfl rfl rfl

/-- The answer to `a` comes after the one to `b` and is shown under `b`. -/
theorem late_answer_shown :
    ¬ ∀ (es : List Event) (t : Cubit ℕ) (query : String) (wines : List ℕ) (isLastPage : Bool),
      run (step twoQueries) initial es = some t → (∀ e ∈ es, e.Succeeds) → t.inFlight = [] →
      lastSearch es = some query → t.state = .success wines isLastPage →
      wines <+: twoQueries query := by
  intro h
  have hlate := h [.searchWines "a", .searchWines "b", .answer 1 none, .answer 0 none] _ "b" [1]
    true rfl (by decide) rfl rfl rfl
  revert hlate
  decide

end WineCellar.Cubits.WineSearch
