import LdkController.Table
import LdkController.Arena
import LdkController.Loop
import LdkController.Walk
import LdkController.BestFirst
import LdkController.Machine
import LdkController.Bucket
import LdkController.Delivery
import LdkController.FirstCome
import LdkController.FixedWidth
import LdkController.Json
import LdkController.Ledger
import LdkController.Locks
import LdkController.Newest
import LdkController.Outcome
import LdkController.Paging
import LdkController.Poll
import LdkController.Since
import LdkController.FanOut
import LdkController.Incidence
import LdkController.JsonWrite
import LdkController.StableSort
import LdkController.Nip47
import LdkController.RateState
import LdkController.AccessStore
import LdkController.UsageProfile
import LdkController.Access
import LdkController.AccessSound
import LdkController.StoreSound
import LdkController.AllowedMethods
import LdkController.LdkService
import LdkController.Handlers
import LdkController.Offers
import LdkController.Bip321
import LdkController.Hex
import LdkController.Grants
import LdkController.Process
import LdkController.Notifications
import LdkController.ShortChannelId
import LdkController.Channels
import LdkController.EventLoop
import LdkController.ProcessSound
import LdkController.GrantsSound
import LdkController.GrantRace
import LdkController.Listings
import LdkController.SubscriptionSound
import LdkController.RevocationSound
import LdkController.HashText
import LdkController.UpdateRace
import LdkController.Locking
import LdkController.ProfileJson
import LdkController.Routes
import LdkController.RouteSearch
import LdkController.RoutesSound
import LdkController.RouteChoice
import LdkController.RouteFees
import LdkController.RouteTermination
import LdkController.RateStateSound
import LdkController.AccountingSound
import LdkController.SpendSound
import LdkController.Bip321Sound
import LdkController.ControlSound
import LdkController.HexSound
import LdkController.IsolationSound
import LdkController.ListingsSound
import LdkController.LockingSound
import LdkController.RedeliverySound
import LdkController.RefillSound
import LdkController.ScidSound
import LdkController.WaitSound
import LdkController.NetworkNodes
import LdkController.ControlMethods
import LdkController.WalletMethods
import LdkController.Relay
import LdkController.RelaySound
import LdkController.AuthoritySound
import LdkController.MeterSound
import LdkController.BudgetSound
import LdkController.AvailabilitySound
import LdkController.NotificationsSound
import LdkController.StoresSound
import LdkController.OffersSound
import LdkController.StrangersSound
import LdkController.ProfileRoundTrip
import LdkController.NetworkSound
