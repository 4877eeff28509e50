import Mathlib.Data.Finset.Image
import WineCellar.Flows.Frame

/-!
# The furniture

The cabinets, shelves and spots without what stands in them. The location dialog
deletes a cabinet with everything below it and inserts it again for every save of
a spot; all the same only the three flows of the storage page move furniture. The
abstract furniture is three finite sets that these flows update, and along every
run the tables show it.
-/

namespace WineCellar.Flows

open Library Database Storage

variable {dec : Decoder} {now : ℕ} {db db' db'' : Tables} {wineId cabinetId : String}

/-! ## Cabinets, shelves and slots -/

structure Slot where
  id : String
  shelfId : String
  index : ℤ
  deriving DecidableEq, Repr

structure Furniture where
  cabinets : Finset CabinetRow
  shelves : Finset ShelfRow
  slots : Finset Slot
  deriving DecidableEq

namespace Furniture

def none : Furniture := ⟨∅, ∅, ∅⟩

/-- A cabinet goes with its shelves and their slots. -/
def without (f : Furniture) (cabinetId : String) : Furniture where
  cabinets := f.cabinets.filter fun c => c.id ≠ cabinetId
  shelves := f.shelves.filter fun s => s.cabinetId ≠ cabinetId
  slots := f.slots.filter fun p => ∀ s ∈ f.shelves, s.id = p.shelfId → s.cabinetId ≠ cabinetId

/-- A new cabinet is empty; an old one of its id goes first. -/
def withCabinet (f : Furniture) (cabinetId name : String) : Furniture :=
  { f.without cabinetId with cabinets := insert ⟨cabinetId, name⟩ (f.without cabinetId).cabinets }

/-- The slots of a new shelf are numbered from 1. -/
def withShelf (f : Furniture) (cabinetId shelfId shelfName : String) (positionIds : List String) :
    Furniture :=
  { f with
    shelves := insert ⟨shelfId, cabinetId, shelfName⟩ f.shelves
    slots := f.slots ∪ (positionIds.zipIdx.map fun (id, index) => ⟨id, shelfId, index + 1⟩).toFinset }

end Furniture

/-- What the storage page does to the furniture. -/
inductive Move where
  | addCabinet (cabinetId name : String)
  | addShelf (cabinetId shelfId shelfName : String) (positionIds : List String)
  | removeCabinet (cabinetId : String)
  deriving DecidableEq, Repr

def Furniture.apply (f : Furniture) : Move → Furniture
  | .addCabinet cabinetId name => f.withCabinet cabinetId name
  | .addShelf cabinetId shelfId shelfName positionIds =>
    f.withShelf cabinetId shelfId shelfName positionIds
  | .removeCabinet cabinetId => f.without cabinetId

/-- The changes of a wine move nothing. -/
def Change.move? : Change → Option Move
  | .flow (.addCabinet cabinetId name) => some (.addCabinet cabinetId name)
  | .flow (.addShelf cabinet shelfId shelfName positionIds) =>
    some (.addShelf cabinet.id shelfId shelfName positionIds)
  | .flow (.deleteCabinet cabinetId) => some (.removeCabinet cabinetId)
  | _ => none

def moves (changes : List (ℕ × Change)) : List Move := changes.filterMap fun e => e.2.move?

def slotOf (p : PositionRow) : Slot := ⟨p.id, p.shelfId, p.positionIndex⟩

/-- The furniture of the tables. -/
def furniture (db : Tables) : Furniture where
  cabinets := db.cabinets.toFinset
  shelves := db.shelves.toFinset
  slots := (db.positions.map slotOf).toFinset

/-! ## Writes on a wine -/

/-- The rows may stand in another order, and other wines in the spots. -/
structure SameFurniture (db db' : Tables) : Prop where
  cabinets : db'.cabinets.Perm db.cabinets
  shelves : db'.shelves.Perm db.shelves
  slots : (db'.positions.map slotOf).Perm (db.positions.map slotOf)

theorem SameFurniture.refl (db : Tables) : SameFurniture db db := ⟨.refl _, .refl _, .refl _⟩

theorem SameFurniture.trans (h : SameFurniture db db') (h' : SameFurniture db' db'') :
    SameFurniture db db'' :=
  ⟨h'.cabinets.trans h.cabinets, h'.shelves.trans h.shelves, h'.slots.trans h.slots⟩

theorem SameFurniture.furniture_eq (h : SameFurniture db db') : furniture db' = furniture db := by
  unfold furniture
  rw [List.toFinset_eq_of_perm _ _ h.cabinets, List.toFinset_eq_of_perm _ _ h.shelves,
    List.toFinset_eq_of_perm _ _ h.slots]

theorem map_slotOf_updateWhere {p : PositionRow → Bool} {set : PositionRow → PositionRow}
    (hset : ∀ r, slotOf (set r) = slotOf r) (rows : List PositionRow) :
    (updateWhere p set rows).map slotOf = rows.map slotOf := by
  unfold updateWhere
  rw [List.map_map]
  refine List.map_congr_left fun r _ => ?_
  simp only [Function.comp_apply]
  split_ifs
  · exact hset r
  · rfl

/-- A spot can lose its wine. -/
theorem sameFurniture_of_cleared {p : PositionRow → Bool} {set : PositionRow → PositionRow}
    (hcabinets : db'.cabinets = db.cabinets) (hshelves : db'.shelves = db.shelves)
    (hpositions : db'.positions = updateWhere p set db.positions)
    (hset : ∀ r, slotOf (set r) = slotOf r) : SameFurniture db db' := by
  refine ⟨hcabinets ▸ .refl _, hshelves ▸ .refl _, ?_⟩
  rw [hpositions, map_slotOf_updateWhere hset]

theorem slotOf_changedRow {change : BottlePositionModel → Option BottlePositionModel}
    (hk : KeepsPlace change) (p : PositionRow) : slotOf (changedRow change p) = slotOf p := by
  cases hchange : change p.toModel with
  | none =>
    simp only [changedRow, changed, hchange]
    rfl
  | some new =>
    obtain ⟨hid, hindex⟩ := hk _ _ hchange
    simp only [changedRow, changed, hchange, slotOf, positionRow, Option.getD_some, hid, hindex]
    rfl

theorem SideCall.sameFurniture {call : SideCall} (h : call.perform now db = some db') :
    SameFurniture db db' := by
  have hcalled := SideCall.addsNothing h
  rcases hcalled.positions with hsame | ⟨wineId, hcleared⟩
  · exact ⟨hcalled.cabinets ▸ .refl _, hcalled.shelves ▸ .refl _, hsame ▸ .refl _⟩
  · exact sameFurniture_of_cleared hcalled.cabinets hcalled.shelves hcleared fun _ => rfl

theorem Write.sameFurniture {Good : WineModel → Prop} (h : Write Good wineId db db') :
    SameFurniture db db' := by
  cases h with
  | save _ _ hsave =>
    obtain ⟨hcabinets, hshelves, hpositions⟩ := saveWine_storage hsave
    exact ⟨hcabinets ▸ .refl _, hshelves ▸ .refl _, hpositions ▸ .refl _⟩
  | delete hdelete =>
    rw [deleteWine_tables _ (deleteWine_eq hdelete).1] at hdelete
    cases hdelete
    exact sameFurniture_of_cleared rfl rfl rfl fun _ => rfl
  | restore hrestore =>
    obtain ⟨-, -, hcabinets, hshelves, hpositions, -⟩ := restoreWine_eq hrestore
    exact sameFurniture_of_cleared hcabinets hshelves hpositions fun _ => rfl
  | free count => exact sameFurniture_of_cleared rfl rfl rfl fun _ => rfl
  | beside _ hcall => exact SideCall.sameFurniture hcall
  | @place change _ hkeeps _ hre =>
    refine ⟨hre.cabinets, hre.shelves, (hre.positions.map slotOf).trans ?_⟩
    rw [List.map_map]
    exact .of_eq (List.map_congr_left fun p _ => slotOf_changedRow hkeeps p)

/-- A change of a wine moves no furniture. -/
theorem named_sameFurniture {e : ℕ × Change} (hdb : Sound db) (hown : e.2.Own)
    (h : change dec db e = some db') (hid : e.2.wineId? = some wineId) : SameFurniture db db' := by
  have hwrite : ∀ db₁ db₂, SameFurniture db db₁ → Write (Saved db e.2) wineId db₁ db₂ →
      SameFurniture db db₂ :=
    fun _ _ hsame hwrite => hsame.trans hwrite.sameFurniture
  exact (change_writes hdb hown h hid).keeps hwrite (.refl db)

/-! ## The storage page -/

theorem shelfIds_iff {cabinetId shelfId : String} :
    shelfId ∈ shelfIds cabinetId db.shelves ↔
      ∃ s ∈ db.shelves, s.id = shelfId ∧ s.cabinetId = cabinetId := by
  simp only [shelfIds, List.mem_map, List.mem_filter, decide_eq_true_eq]
  constructor
  · rintro ⟨s, ⟨hs, hc⟩, hid⟩
    exact ⟨s, hs, hid, hc⟩
  · rintro ⟨s, hs, hid, hc⟩
    exact ⟨s, ⟨hs, hc⟩, hid⟩

theorem furniture_deleteCabinet (cabinetId : String) (db : Tables) :
    furniture (deleteCabinet cabinetId db) = (furniture db).without cabinetId := by
  have hslots (p : PositionRow) : ¬ p.shelfId ∈ shelfIds cabinetId db.shelves ↔
      ∀ s ∈ db.shelves, s.id = p.shelfId → s.cabinetId ≠ cabinetId := by
    rw [shelfIds_iff]
    push Not
    rfl
  simp only [furniture, Furniture.without, deleteCabinet, deleteCabinetRow, deleteShelves,
    Furniture.mk.injEq]
  refine ⟨?_, ?_, ?_⟩
  · ext c
    simp
  · ext s
    simp
  · ext slot
    simp only [List.mem_toFinset, List.mem_map, mem_deleteWhere, decide_eq_false_iff_not,
      Finset.mem_filter]
    constructor
    · rintro ⟨p, ⟨hp, hout⟩, rfl⟩
      exact ⟨⟨p, hp, rfl⟩, (hslots p).mp hout⟩
    · rintro ⟨⟨p, hp, rfl⟩, hout⟩
      exact ⟨p, ⟨hp, (hslots p).mpr hout⟩, rfl⟩

theorem furniture_addCabinet {name : String} (hdb : Valid db)
    (h : saveCabinet ⟨cabinetId, name, []⟩ db = some db') :
    furniture db' = (furniture db).withCabinet cabinetId name := by
  have hdeleted := furniture_deleteCabinet cabinetId db
  rw [(saveCabinet_spec hdb h).2, Furniture.withCabinet, ← hdeleted]
  simp only [furniture, deleteCabinet, deleteCabinetRow, shelfRowsOf, cabinetPositions, List.map_nil,
    List.flatMap_nil, List.append_nil, Furniture.mk.injEq, and_true]
  ext c
  simp [deleteShelves, or_comm]

theorem furniture_addShelf {cabinet : CabinetModel} {shelfId shelfName : String}
    {positionIds : List String} (hdb : Valid db) (hc : cabinet ∈ getStorageLocations db)
    (h : saveCabinet (withShelf cabinet shelfId shelfName positionIds) db = some db') :
    furniture db' = (furniture db).withShelf cabinet.id shelfId shelfName positionIds := by
  obtain ⟨hadds, -⟩ := Pages.addsShelf_of_saveCabinet hdb hc h
  have hnew : (Pages.newSpots shelfId positionIds).map slotOf =
      positionIds.zipIdx.map fun (id, index) => ⟨id, shelfId, index + 1⟩ := by
    simp [Pages.newSpots, slotOf, Function.comp_def]
  have hslots := List.toFinset_eq_of_perm _ _ (hadds.positions.map slotOf)
  rw [List.map_append, hnew, List.toFinset_append] at hslots
  have hshelves := List.toFinset_eq_of_perm _ _ hadds.shelves
  simp only [furniture, Furniture.withShelf, Furniture.mk.injEq]
  refine ⟨List.toFinset_eq_of_perm _ _ hadds.cabinets, ?_, hslots⟩
  rw [hshelves]
  ext s
  simp [or_comm]

/-! ## Runs -/

/-- A change with its move, or without one. -/
def furnish (f : Furniture) (e : ℕ × Change) : Furniture := e.2.move?.elim f f.apply

theorem foldl_furnish (f : Furniture) (changes : List (ℕ × Change)) :
    changes.foldl furnish f = (moves changes).foldl Furniture.apply f := by
  rw [moves, List.foldl_filterMap]
  congr 1
  funext f e
  unfold furnish
  cases e.2.move? <;> rfl

theorem storagePage_furniture {flow : Flow} (hdb : Sound db)
    (h : step db (now, flow) = some db') (hid : flow.wineId? = none) :
    furniture db' = furnish (furniture db) (now, .flow flow) := by
  cases step_completes h with
  | addCabinet hcall => exact furniture_addCabinet hdb.valid hcall
  | addShelf hc hcall => exact furniture_addShelf hdb.valid hc hcall
  | deleteCabinet hcall =>
    subst hcall
    exact furniture_deleteCabinet _ db
  | beside hcall => exact (SideCall.sameFurniture hcall).furniture_eq
  | _ => cases hid

theorem move?_of_named {c : Change} (hid : c.wineId? = some wineId) : c.move? = none := by
  cases c with
  | flow flow =>
    cases flow with
    | addCabinet _ _ => cases hid
    | addShelf _ _ _ _ => cases hid
    | deleteCabinet _ => cases hid
    | _ => rfl
  | _ => rfl

theorem change_furniture {e : ℕ × Change} (hdb : Sound db) (hown : e.2.Own)
    (h : change dec db e = some db') : furniture db' = furnish (furniture db) e := by
  cases hid : e.2.wineId? with
  | none =>
    obtain ⟨now, c⟩ := e
    cases c with
    | flow flow => exact storagePage_furniture hdb h hid
    | _ => cases hid
  | some wineId =>
    rw [furnish, move?_of_named hid]
    exact (named_sameFurniture hdb hown h hid).furniture_eq

/-- Whatever is added, moved, removed and edited in between, the tables show the
furniture that the storage page has put up and taken away. -/
theorem furniture_of_run (dec : Decoder) {changes : List (ℕ × Change)}
    (hown : ∀ e ∈ changes, e.2.Own) (hrun : run (change dec) empty changes = some db) :
    furniture db = (moves changes).foldl Furniture.apply Furniture.none := by
  have hstep : ∀ db f e db', (Sound db ∧ furniture db = f) → e.2.Own →
      change dec db e = some db' → Sound db' ∧ furniture db' = furnish f e := by
    rintro db f e db' ⟨hdb, rfl⟩ hown h
    exact ⟨change_sound hdb h, change_furniture hdb hown h⟩
  rw [← foldl_furnish]
  exact (run_foldl_guarded hstep ⟨empty_sound, rfl⟩ (guarded_of_forall hown) hrun).2

/-- One bottle in the rack: the dialog has written the rack again. -/
def baroloInRack : List (ℕ × Change) := oneBarolo ++ [addOneMore true []]

theorem baroloInRack_own : ∀ e ∈ baroloInRack, e.2.Own := by decide +kernel

theorem furniture_of_run_barolo :
    ∃ db, run (change noDecoder) empty baroloInRack = some db ∧ spotCount "w" db = 1 ∧
      furniture db = ⟨{⟨"c", "Rack"⟩}, {⟨"s", "c", "Top"⟩}, {⟨"p1", "s", 1⟩, ⟨"p2", "s", 2⟩}⟩ := by
  have hrun : ((run (change noDecoder) empty baroloInRack).map fun db => spotCount "w" db) =
      some 1 := by
    decide +kernel
  obtain ⟨db, hdb, hspots⟩ := Option.map_eq_some_iff.mp hrun
  have hfurniture := furniture_of_run noDecoder baroloInRack_own hdb
  exact ⟨db, hdb, hspots, hfurniture.trans (by decide +kernel)⟩

/-! ## The numbers of the spots -/

/-- The numbers of the spots of a shelf, in the order of the rows. -/
def numbers (shelfId : String) (db : Tables) : List ℤ :=
  ((db.positions.map slotOf).filter fun p => p.shelfId = shelfId).map Slot.index

/-- The numbers from 1 to `n`. -/
def fromOne (n : ℕ) : List ℤ := (List.range n).map fun i : ℕ => (i : ℤ) + 1

/-- The spots of every shelf are numbered from 1, without a gap. -/
def Numbered (db : Tables) : Prop :=
  ∀ s ∈ db.shelves, ∃ n, (numbers s.id db).Perm (fromOne n)

theorem numbers_eq (shelfId : String) (db : Tables) :
    numbers shelfId db =
      (db.positions.filter fun p => p.shelfId = shelfId).map PositionRow.positionIndex := by
  rw [numbers, List.filter_map, List.map_map]
  rfl

theorem SameFurniture.numbered (h : SameFurniture db db') (hdb : Numbered db) : Numbered db' := by
  intro s hs
  obtain ⟨n, hn⟩ := hdb s (h.shelves.mem_iff.mp hs)
  exact ⟨n, ((h.slots.filter _).map _).trans hn⟩

/-- The shelves that stay keep their spots. -/
theorem numbered_of_kept (hdb : Numbered db) (hkept : ∀ s ∈ db'.shelves, s ∈ db.shelves ∧
    db'.positions.filter (fun p => p.shelfId = s.id) =
      db.positions.filter fun p => p.shelfId = s.id) : Numbered db' := by
  intro s hs
  obtain ⟨hold, hpositions⟩ := hkept s hs
  obtain ⟨n, hn⟩ := hdb s hold
  refine ⟨n, ?_⟩
  rw [numbers_eq] at hn ⊢
  rw [hpositions]
  exact hn

theorem numbered_deleteCabinet (hdb : Valid db) (hn : Numbered db) (cabinetId : String) :
    Numbered (deleteCabinet cabinetId db) := by
  refine numbered_of_kept hn fun s hs => ?_
  obtain ⟨hold, hne⟩ := mem_deleteWhere.mp hs
  exact ⟨hold, filter_positions_deleteShelves hdb hold (by simpa using hne)⟩

theorem numbered_addCabinet {name : String} (hdb : Valid db) (hn : Numbered db)
    (h : saveCabinet ⟨cabinetId, name, []⟩ db = some db') : Numbered db' := by
  have hdeleted := numbered_deleteCabinet hdb hn cabinetId
  have hspec := (saveCabinet_spec hdb h).2
  have hshelves : db'.shelves = (deleteCabinet cabinetId db).shelves := by
    rw [hspec]
    exact List.append_nil _
  have hpositions : db'.positions = (deleteCabinet cabinetId db).positions := by
    rw [hspec]
    exact List.append_nil _
  exact numbered_of_kept hdeleted fun s hs => ⟨hshelves ▸ hs, by rw [hpositions]⟩

theorem numbers_newSpots (shelfId : String) (positionIds : List String) :
    (Pages.newSpots shelfId positionIds).map PositionRow.positionIndex = fromOne positionIds.length := by
  have hindexes : positionIds.zipIdx.map Prod.snd = List.range positionIds.length := by
    rw [List.zipIdx_map_snd, List.range_eq_range']
  rw [fromOne, ← hindexes, Pages.newSpots, List.map_map, List.map_map]
  rfl

theorem numbered_addShelf {cabinet : CabinetModel} {shelfId shelfName : String}
    {positionIds : List String} (hdb : Valid db) (hn : Numbered db)
    (hc : cabinet ∈ getStorageLocations db)
    (h : saveCabinet (withShelf cabinet shelfId shelfName positionIds) db = some db') :
    Numbered db' := by
  obtain ⟨hadds, hclash⟩ := Pages.addsShelf_of_saveCabinet hdb hc h
  have hnew : shelfId ∉ db.shelves.map ShelfRow.id := fun hin => hclash (.inl hin)
  have hnumbers (id : String) : (numbers id db').Perm
      (numbers id db ++ ((Pages.newSpots shelfId positionIds).filter fun p => p.shelfId = id).map
        PositionRow.positionIndex) := by
    rw [numbers_eq, numbers_eq, ← List.map_append, ← List.filter_append]
    exact (hadds.positions.filter _).map _
  have hspots : ∀ p ∈ Pages.newSpots shelfId positionIds, p.shelfId = shelfId := by
    intro p hp
    obtain ⟨e, -, rfl⟩ := List.mem_map.mp hp
    rfl
  intro s hs
  rcases List.mem_append.mp (hadds.shelves.mem_iff.mp hs) with hold | hlast
  · obtain ⟨n, hperm⟩ := hn s hold
    have hnone : (Pages.newSpots shelfId positionIds).filter (fun p => p.shelfId = s.id) = [] := by
      rw [List.filter_eq_nil_iff]
      intro p hp he
      have hid : shelfId = s.id := (hspots p hp).symm.trans (of_decide_eq_true he)
      exact hnew (hid ▸ List.mem_map_of_mem hold)
    refine ⟨n, (hnumbers s.id).trans ?_⟩
    rw [hnone, List.map_nil, List.append_nil]
    exact hperm
  · rw [List.mem_singleton.mp hlast]
    have hempty : numbers shelfId db = [] := by
      rw [numbers_eq, List.map_eq_nil_iff, List.filter_eq_nil_iff]
      intro p hp he
      exact hnew (of_decide_eq_true he ▸ hdb.position_shelf p hp)
    have hall : (Pages.newSpots shelfId positionIds).filter (fun p => p.shelfId = shelfId) =
        Pages.newSpots shelfId positionIds :=
      List.filter_eq_self.mpr fun p hp => decide_eq_true (hspots p hp)
    refine ⟨positionIds.length, (hnumbers shelfId).trans ?_⟩
    rw [hempty, hall, numbers_newSpots]
    exact .refl _

theorem change_numbered {e : ℕ × Change} (hdb : Sound db) (hn : Numbered db) (hown : e.2.Own)
    (h : change dec db e = some db') : Numbered db' := by
  cases hid : e.2.wineId? with
  | some wineId => exact (named_sameFurniture hdb hown h hid).numbered hn
  | none =>
    obtain ⟨now, c⟩ := e
    cases c with
    | flow flow =>
      cases step_completes h with
      | addCabinet hcall => exact numbered_addCabinet hdb.valid hn hcall
      | addShelf hc hcall => exact numbered_addShelf hdb.valid hn hc hcall
      | deleteCabinet hcall =>
        subst hcall
        exact numbered_deleteCabinet hdb.valid hn _
      | beside hcall => exact (SideCall.sameFurniture hcall).numbered hn
      | _ => cases hid
    | _ => cases hid

/-! ## The storage page without its wines -/

/-- A spot as the page lists it, with nothing in it. -/
def emptied (pos : BottlePositionModel) : Option BottlePositionModel :=
  some ⟨pos.id, pos.index, none, none⟩

def layout (db : Tables) : List CabinetModel := (getStorageLocations db).map (updatedCabinet emptied)

/-- Rows with distinct keys have one order. -/
theorem insertionSort_key_congr {α κ : Type} [LE κ] [DecidableLE κ] [Std.IsLinearOrder κ]
    {key : α → κ} {rows rows' : List α} (hn : (rows.map key).Nodup) (h : rows'.Perm rows) :
    rows'.insertionSort (fun a b => key a ≤ key b) = rows.insertionSort fun a b => key a ≤ key b := by
  have hperm := (List.perm_insertionSort (fun a b => key a ≤ key b) rows').trans
    (h.trans (List.perm_insertionSort (fun a b => key a ≤ key b) rows).symm)
  refine hperm.eq_of_pairwise ?_ (List.pairwise_insertionSort _ _) (List.pairwise_insertionSort _ _)
  intro a b ha hb hab hba
  have ha := h.mem_iff.mp ((List.perm_insertionSort _ _).mem_iff.mp ha)
  have hb := (List.perm_insertionSort _ _).mem_iff.mp hb
  exact List.inj_on_of_nodup_map hn ha hb (Std.le_antisymm hab hba)

theorem nodup_fromOne (n : ℕ) : (fromOne n).Nodup := by
  refine List.nodup_range.map ?_
  intro i j hij
  simpa using hij

/-- The emptied spots of a shelf are those of its slots, in the order of their
numbers. -/
theorem emptied_positions (shelfId : String) (db : Tables) :
    ((shelfPositions db shelfId).map PositionRow.toModel).map (changed emptied) =
      (((db.positions.map slotOf).filter fun p => p.shelfId = shelfId).insertionSort
        fun a b => a.index ≤ b.index).map fun p => ⟨p.id, p.index, none, none⟩ := by
  have hslots : (shelfPositions db shelfId).map slotOf =
      ((db.positions.map slotOf).filter fun p => p.shelfId = shelfId).insertionSort
        fun a b => a.index ≤ b.index := by
    rw [shelfPositions, List.filter_map,
      List.map_insertionSort (fun a b : PositionRow => a.positionIndex ≤ b.positionIndex)
        (fun a b : Slot => a.index ≤ b.index) slotOf _ fun _ _ _ _ => Iff.rfl]
    rfl
  rw [← hslots, List.map_map, List.map_map]
  rfl

theorem layout_eq (hdb : Valid db) : layout db = (sortedCabinets db).map fun c =>
    ⟨c.id, c.name, (cabinetShelves db c.id).map fun s =>
      ⟨s.id, s.name, ((shelfPositions db s.id).map PositionRow.toModel).map (changed emptied)⟩⟩ := by
  rw [layout, getStorageLocations_eq hdb, List.map_map]
  refine List.map_congr_left fun c _ => ?_
  simp only [Function.comp_apply, updatedCabinet, cabinetModel, List.map_map]
  congr 1
  refine List.map_congr_left fun s _ => ?_
  simp only [Function.comp_apply, updatedShelf, shelfModel, List.map_map]

/-- The same furniture is shown in the same way. -/
theorem layout_congr (hdb : Valid db) (hdb' : Valid db') (hn : Numbered db)
    (h : SameFurniture db db') : layout db' = layout db := by
  have hcabinets : sortedCabinets db' = sortedCabinets db :=
    insertionSort_key_congr hdb.cabinets h.cabinets
  have hshelves (cabinetId : String) : cabinetShelves db' cabinetId = cabinetShelves db cabinetId :=
    insertionSort_key_congr (hdb.shelves.sublist (List.filter_sublist.map _)) (h.shelves.filter _)
  rw [layout_eq hdb, layout_eq hdb', hcabinets]
  refine List.map_congr_left fun c _ => ?_
  rw [hshelves]
  congr 1
  refine List.map_congr_left fun s hs => ?_
  congr 1
  obtain ⟨n, hnumbers⟩ := hn s (List.mem_filter.mp ((List.perm_insertionSort _ _).mem_iff.mp hs)).1
  rw [emptied_positions, emptied_positions]
  congr 1
  exact insertionSort_key_congr (hnumbers.nodup_iff.mpr (nodup_fromOne n)) (h.slots.filter _)

theorem sameFurniture_of_eq (hdb : Valid db) (hdb' : Valid db')
    (h : furniture db' = furniture db) : SameFurniture db db' := by
  simp only [furniture, Furniture.mk.injEq] at h
  obtain ⟨hcabinets, hshelves, hslots⟩ := h
  have hnodup {d : Tables} (hd : Valid d) : (d.positions.map slotOf).Nodup := by
    refine List.Nodup.of_map Slot.id ?_
    rw [List.map_map]
    exact hd.positions
  exact ⟨List.perm_of_nodup_nodup_toFinset_eq hdb'.cabinets.of_map hdb.cabinets.of_map hcabinets,
    List.perm_of_nodup_nodup_toFinset_eq hdb'.shelves.of_map hdb.shelves.of_map hshelves,
    List.perm_of_nodup_nodup_toFinset_eq (hnodup hdb') (hnodup hdb) hslots⟩

/-- The numbers stand on the page in their order. -/
theorem layout_numbered (hdb : Valid db) (hn : Numbered db) :
    ∀ c ∈ layout db, ∀ s ∈ c.shelves,
      s.positions.map BottlePositionModel.index = fromOne s.positions.length := by
  intro c hc s hs
  rw [layout_eq hdb] at hc
  obtain ⟨row, -, rfl⟩ := List.mem_map.mp hc
  obtain ⟨shelf, hshelf, rfl⟩ := List.mem_map.mp hs
  obtain ⟨n, hnumbers⟩ :=
    hn shelf (List.mem_filter.mp ((List.perm_insertionSort _ _).mem_iff.mp hshelf)).1
  have hindexes : (((shelfPositions db shelf.id).map PositionRow.toModel).map (changed emptied)).map
      BottlePositionModel.index = (shelfPositions db shelf.id).map PositionRow.positionIndex := by
    rw [List.map_map, List.map_map]
    rfl
  have hsorted : ((shelfPositions db shelf.id).map PositionRow.positionIndex).Pairwise (· ≤ ·) :=
    List.pairwise_map.mpr (List.pairwise_insertionSort _ _)
  have hperm : ((shelfPositions db shelf.id).map PositionRow.positionIndex).Perm (fromOne n) := by
    rw [numbers_eq] at hnumbers
    exact ((List.perm_insertionSort _ _).map _).trans hnumbers
  have hfromOne : (fromOne n).Pairwise (· ≤ ·) := by
    refine List.pairwise_map.mpr (List.pairwise_le_range.imp ?_)
    intro i j hij
    omega
  have hlength : (shelfPositions db shelf.id).length = n := by
    simpa [fromOne] using hperm.length_eq
  rw [hindexes]
  simp only [List.length_map, hlength]
  exact hperm.eq_of_pairwise' hsorted hfromOne

/-- Two runs in which the storage page does the same show the same cabinets,
shelves and spots in the same order, whatever happens to the wines, and the spots
of every shelf stand there as 1, 2 and so on. -/
theorem layout_of_run (dec : Decoder) {changes changes' : List (ℕ × Change)}
    (hown : ∀ e ∈ changes, e.2.Own) (hown' : ∀ e ∈ changes', e.2.Own)
    (hrun : run (change dec) empty changes = some db)
    (hrun' : run (change dec) empty changes' = some db') (hmoves : moves changes' = moves changes) :
    layout db' = layout db ∧ ∀ c ∈ layout db, ∀ s ∈ c.shelves,
      s.positions.map BottlePositionModel.index = fromOne s.positions.length := by
  have hstep : ∀ db e db', Sound db ∧ Numbered db → e.2.Own → change dec db e = some db' →
      Sound db' ∧ Numbered db' := by
    rintro db e db' ⟨hdb, hn⟩ hown h
    exact ⟨change_sound hdb h, change_numbered hdb hn hown h⟩
  have hempty : Sound empty ∧ Numbered empty := ⟨empty_sound, fun _ hs => absurd hs (by simp [empty])⟩
  obtain ⟨hdb, hn⟩ := run_invariant_guarded hstep hempty (guarded_of_forall hown) hrun
  obtain ⟨hdb', -⟩ := run_invariant_guarded hstep hempty (guarded_of_forall hown') hrun'
  have hfurniture : furniture db' = furniture db := by
    rw [furniture_of_run dec hown' hrun', hmoves, furniture_of_run dec hown hrun]
  have hsame := sameFurniture_of_eq hdb.valid hdb'.valid hfurniture
  exact ⟨layout_congr hdb.valid hdb'.valid hn hsame, layout_numbered hdb.valid hn⟩

/-- The rack with another wine, which is left unassigned. -/
def chiantiBesideRack : List (ℕ × Change) :=
  [(1, .flow (.addCabinet "c" "Rack")), (2, .flow (.addWine { name := "Chianti" } "v" "d" [.cancel])),
    (3, .flow (.addShelf ⟨"c", "Rack", []⟩ "s" "Top" ["p1", "p2"]))]

theorem layout_of_run_barolo :
    ∃ db db', run (change noDecoder) empty baroloInRack = some db ∧
      run (change noDecoder) empty chiantiBesideRack = some db' ∧ layout db' = layout db := by
  have hrun : (run (change noDecoder) empty baroloInRack).isSome = true := by decide +kernel
  have hrun' : (run (change noDecoder) empty chiantiBesideRack).isSome = true := by decide +kernel
  obtain ⟨db, hdb⟩ := Option.isSome_iff_exists.mp hrun
  obtain ⟨db', hdb'⟩ := Option.isSome_iff_exists.mp hrun'
  have hown' : ∀ e ∈ chiantiBesideRack, e.2.Own := by decide +kernel
  exact ⟨db, db', hdb, hdb', (layout_of_run noDecoder baroloInRack_own hown' hdb hdb' rfl).1⟩

end WineCellar.Flows
