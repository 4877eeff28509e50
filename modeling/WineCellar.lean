import WineCellar.Library.Runs
import WineCellar.Library.Pool
import WineCellar.Library.Reload
import WineCellar.Library.Throws
import WineCellar.Library.Tables
import WineCellar.Library.Text
import WineCellar.Library.Split
import WineCellar.Library.Numerals
import WineCellar.Library.OrderedMap
import WineCellar.Library.Greedy
import WineCellar.Sync.Upload
import WineCellar.Session.Machine
import WineCellar.Session.Modes
import WineCellar.Session.Handle
import WineCellar.Session.Start
import WineCellar.Session.Downloads
import WineCellar.Session.Unsynced
import WineCellar.Session.Isolation
import WineCellar.Session.Resolve
import WineCellar.Sync.Devices
import WineCellar.Sync.Replica
import WineCellar.Sync.Relay
import WineCellar.Sync.Discipline
import WineCellar.Database.Model
import WineCellar.Database.Schema
import WineCellar.Database.Repositories
import WineCellar.Database.Loaded
import WineCellar.Database.Places
import WineCellar.Database.Tracking
import WineCellar.Database.Storage
import WineCellar.Database.Reassign
import WineCellar.Database.Wines
import WineCellar.Database.Spots
import WineCellar.Database.Purchases
import WineCellar.Database.Lifecycle
import WineCellar.Database.Overlap
import WineCellar.Database.Interleaved
import WineCellar.Storage.LocationDialog
import WineCellar.Storage.Outcome
import WineCellar.Storage.Cancel
import WineCellar.Storage.Ownership
import WineCellar.Storage.Selection
import WineCellar.Storage.Unassigned
import WineCellar.Database.Reachable
import WineCellar.Database.Columns
import WineCellar.Database.RoundTrip
import WineCellar.Database.Upserts
import WineCellar.Database.Cabinets
import WineCellar.Database.Catalogue
import WineCellar.Flows.Machine
import WineCellar.Flows.DialogSaves
import WineCellar.Flows.SideCalls
import WineCellar.Flows.Leads
import WineCellar.Flows.Capacity
import WineCellar.Flows.Stock
import WineCellar.Flows.Totals
import WineCellar.Flows.Writes
import WineCellar.Flows.Lowering
import WineCellar.Flows.Removal
import WineCellar.Flows.Sizes
import WineCellar.Flows.Tapped
import WineCellar.Cubits.WineSearch
import WineCellar.Cubits.Paging
import WineCellar.Cubits.Wishlist
import WineCellar.Cubits.Main
import WineCellar.Cubits.Reloading
import WineCellar.Pages.MainPage
import WineCellar.Pages.LocationText
import WineCellar.Pages.Conservation
import WineCellar.Pages.Faithful
import WineCellar.Pages.Search
import WineCellar.Pages.Overview
import WineCellar.Pages.ManageStorage
import WineCellar.Pages.AddWineForm
import WineCellar.Pages.EditWineDialog
import WineCellar.Pages.WineDetailPage
import WineCellar.Pages.OptimisticLocation
import WineCellar.Flows.Frame
import WineCellar.Flows.Furniture
import WineCellar.Flows.Presence
import WineCellar.Flows.Ledger
import WineCellar.Pages.Pickers
import WineCellar.Pages.Autocomplete
import WineCellar.Pages.LogPurchase
import WineCellar.Pages.PurchaseHistory
