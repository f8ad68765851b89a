import BallotBox.Properties.Results
import BallotBox.Properties.Replay
import BallotBox.Properties.AllOrNothing
import BallotBox.Properties.Channels
import BallotBox.Properties.Lifecycle
import BallotBox.Properties.UnreadableReplies
import BallotBox.Properties.ElectionIds
import BallotBox.Properties.StateChanges
import BallotBox.Properties.ReadBack
import BallotBox.Properties.StatementShapes
import BallotBox.Properties.Recovery
import BallotBox.Properties.Aborts
import BallotBox.Properties.BeforeImages
import BallotBox.Properties.Isolation
import BallotBox.Properties.ParseableLog
import BallotBox.Properties.Deadlocks
import BallotBox.Properties.Tokens
import BallotBox.Properties.UniqueAccounts
import BallotBox.Properties.AnnouncedCounts
import BallotBox.Properties.BufferedMessages
import BallotBox.Properties.CreateRoundTrips
import BallotBox.Properties.Refusals
import BallotBox.Properties.RequestGrammar
import BallotBox.Properties.RowTables
import BallotBox.Properties.WireReplies
import BallotBox.Properties.ControlFrames
import BallotBox.Properties.EligibleLists
import BallotBox.Properties.PasswordGuessing
import BallotBox.Properties.Deletions
import BallotBox.Properties.StatusReports
import BallotBox.Properties.ActiveTransactions
import BallotBox.Properties.FreePages
import BallotBox.Properties.DroppedRecords
import BallotBox.Properties.LastDirective
import BallotBox.Properties.PageSizes
