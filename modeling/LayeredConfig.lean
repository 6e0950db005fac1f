import LayeredConfig.Change.Call
import LayeredConfig.Configuration.Derived
import LayeredConfig.Filter.Hiding
import LayeredConfig.Proofs.Bridge.Crossing
import LayeredConfig.Proofs.Bridge.Driving
import LayeredConfig.Proofs.Bridge.Forwarding
import LayeredConfig.Proofs.Change.Backends
import LayeredConfig.Proofs.Change.Effect
import LayeredConfig.Proofs.Change.Selection
import LayeredConfig.Proofs.Conversion.Hints
import LayeredConfig.Proofs.Conversion.Surroundings
import LayeredConfig.Proofs.Derived.Composition
import LayeredConfig.Proofs.Derived.Sections
import LayeredConfig.Proofs.Derived.Typed
import LayeredConfig.Proofs.File.Neighbour
import LayeredConfig.Proofs.Filter.Expansion
import LayeredConfig.Proofs.Flat.Breaking
import LayeredConfig.Proofs.Flat.Ends
import LayeredConfig.Proofs.Flat.Escapes
import LayeredConfig.Proofs.Flat.RoundTrip
import LayeredConfig.Proofs.Key.Enclosure
import LayeredConfig.Proofs.Literal.Durations
import LayeredConfig.Proofs.Literal.Kinds
import LayeredConfig.Proofs.Live.Adoption
import LayeredConfig.Proofs.Lookup.Calls
import LayeredConfig.Proofs.Mutable.ReadBack
import LayeredConfig.Proofs.Mutable.Refusal
import LayeredConfig.Proofs.Mutable.Replay
import LayeredConfig.Proofs.Mutable.Restriction
import LayeredConfig.Proofs.Pattern.Restriction
import LayeredConfig.Proofs.Property.Serialization
import LayeredConfig.Proofs.Provider.Snapshot
import LayeredConfig.Proofs.Xml.Comments
import LayeredConfig.Proofs.Xml.Documents
import LayeredConfig.Proofs.Xml.Scanning
import LayeredConfig.Provider.File
import LayeredConfig.Provider.Memory
import LayeredConfig.Report.Conversion
import LayeredConfig.Report.Document
import LayeredConfig.Report.Engine
import LayeredConfig.Sample.Backend
import LayeredConfig.Sample.Converter
import LayeredConfig.Sample.Filter
import LayeredConfig.Sample.Host
import LayeredConfig.Sample.Operator
import LayeredConfig.Sample.Provider
