import DepthFeed.Consumer.Handle
import DepthFeed.Consumer.Publisher
import DepthFeed.Consumer.Queue
import DepthFeed.Consumer.Script
import DepthFeed.Hub.Ingest
import DepthFeed.Json.Printer
import DepthFeed.Json.Reader
import DepthFeed.Json.Records
import DepthFeed.Proofs.Book.Accumulation
import DepthFeed.Proofs.Book.Mirror
import DepthFeed.Proofs.Book.Resync
import DepthFeed.Proofs.Book.Trades
import DepthFeed.Proofs.Consumer.Handles
import DepthFeed.Proofs.Hub.Alerts
import DepthFeed.Proofs.Hub.Balance
import DepthFeed.Proofs.Hub.Counting
import DepthFeed.Proofs.Hub.Isolation
import DepthFeed.Proofs.Hub.Pipeline
import DepthFeed.Proofs.Hub.Records
import DepthFeed.Proofs.Hub.Shutdown
import DepthFeed.Proofs.Hub.Survival
import DepthFeed.Proofs.Json.Records
import DepthFeed.Proofs.Ring.Custody
import DepthFeed.Proofs.Ring.Fifo
import DepthFeed.Proofs.Sequence.Conservation
import DepthFeed.Proofs.Stats.Sharing
import DepthFeed.Proofs.Stats.Totals
import DepthFeed.Proofs.Ticks.ScalingOrder
import DepthFeed.Proofs.Ticks.Text
import DepthFeed.Stats.Store
