import RosGraph.Naming
import RosGraph.Settings
import RosGraph.Simulation.Step
import RosGraph.SortedMap.Lemmas
import RosGraph.SortedMap.Values
import RosGraph.TopicLedger
import RosGraph.UserData
import RosGraph.Qos.Compatibility
import RosGraph.Wire.Message
import RosGraph.Proofs.AllOrNothing
import RosGraph.Proofs.Gossip
import RosGraph.Proofs.Locality
import RosGraph.Proofs.Network
import RosGraph.Proofs.Ledger.Bag
import RosGraph.Proofs.Ledger.Views
import RosGraph.Proofs.Qos.Completion
import RosGraph.Proofs.Qos.Choice
import RosGraph.Proofs.Qos.Fit
import RosGraph.Proofs.Qos.OnWire
import RosGraph.Proofs.Qos.Lookup
import RosGraph.Proofs.Qos.Monotone
import RosGraph.Proofs.Qos.Buffer
import RosGraph.Proofs.WireSaturation
import RosGraph.Proofs.Spans
import RosGraph.Proofs.UserData.Form
import RosGraph.Proofs.Views
import RosGraph.Proofs.Breach
import RosGraph.Proofs.Qos.OpenTopic
import RosGraph.Proofs.Notices
import RosGraph.Proofs.Rollback
import RosGraph.Proofs.Catalogue
import RosGraph.Proofs.Host
import RosGraph.Proofs.SharedCache
import RosGraph.Proofs.Census
import RosGraph.Proofs.Keystore
import RosGraph.Proofs.Wire.Message
import RosGraph.Proofs.Coalescing
import RosGraph.Proofs.DottedText
