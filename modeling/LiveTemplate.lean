import LiveTemplate.Json.Printer
import LiveTemplate.Json.Reader
import LiveTemplate.Markup.Parser
import LiveTemplate.Markup.Serializer
import LiveTemplate.Mount
import LiveTemplate.Options.FromJson
import LiveTemplate.Options.FromToml
import LiveTemplate.Proofs.Reactive.Progress
import LiveTemplate.Proofs.Collector
import LiveTemplate.Proofs.Reactive.Running
import LiveTemplate.Proofs.Registration
import LiveTemplate.Proofs.Reactive.Trace
import LiveTemplate.Proofs.Reactive.WithPolicy
import LiveTemplate.Proofs.FailFast
import LiveTemplate.Proofs.Reactive.Fields
import LiveTemplate.Proofs.Reactive.Only
import LiveTemplate.Proofs.Spot.Basic
import LiveTemplate.Proofs.Spot.Run
import LiveTemplate.Proofs.Dom.Footprint
import LiveTemplate.Proofs.Dom.Labels
import LiveTemplate.Proofs.Dom.Positions
import LiveTemplate.Proofs.Selector.Search
import LiveTemplate.Proofs.Template.Walk
import LiveTemplate.Proofs.Template.Binding
import LiveTemplate.Proofs.Template.Sites
import LiveTemplate.Proofs.Convergence
import LiveTemplate.Proofs.Reactive.Growth
import LiveTemplate.Proofs.Reactive.Chronicle
import LiveTemplate.Proofs.Reactive.Sources
import LiveTemplate.Proofs.Activation
import LiveTemplate.Proofs.Isolation
import LiveTemplate.Proofs.Template.Places
import LiveTemplate.Proofs.Dom.Trees
import LiveTemplate.Proofs.Template.Coverage
import LiveTemplate.Proofs.Dom.Painted
import LiveTemplate.Proofs.Template.Layout
import LiveTemplate.Proofs.Template.Repaint
import LiveTemplate.Proofs.CompileOrder
import LiveTemplate.Proofs.Reactive.Slots
import LiveTemplate.Proofs.Template.Crew
import LiveTemplate.Proofs.Subscriptions
import LiveTemplate.Proofs.Dom.Furnished
import LiveTemplate.Proofs.Mounting
import LiveTemplate.Proofs.Interleaving
import LiveTemplate.Proofs.Dom.Coated
import LiveTemplate.Proofs.Template.Coating
import LiveTemplate.Proofs.Markup.Marks
import LiveTemplate.Proofs.Noninterference
import LiveTemplate.Proofs.Reactive.Recent
import LiveTemplate.Proofs.Policies
import LiveTemplate.Proofs.Descent
import LiveTemplate.Proofs.Redefinition
import LiveTemplate.Proofs.Snapshots
import LiveTemplate.Proofs.FailedCompile
import LiveTemplate.Proofs.UniqueReading
import LiveTemplate.Proofs.SameValue
import LiveTemplate.Proofs.FloatDisplay
import LiveTemplate.Proofs.Dom.Planted
import LiveTemplate.Proofs.Markup.Reparsed
import LiveTemplate.Proofs.Markup.Constructed
import LiveTemplate.Proofs.Markup.Plain
import LiveTemplate.Proofs.Reinstalling
import LiveTemplate.Proofs.OwnNodes
import LiveTemplate.Proofs.NodeGraphs
import LiveTemplate.Proofs.ObjectGraphs
import LiveTemplate.Proofs.NestedWrites
import LiveTemplate.Proofs.KnownKeys
import LiveTemplate.Proofs.Recomputation
import LiveTemplate.Proofs.Text.Words
import LiveTemplate.Proofs.Selector.Matching
import LiveTemplate.Proofs.Selector.Spelling
import LiveTemplate.Proofs.Selector.Grammar
import LiveTemplate.Proofs.Template.Interpolation
import LiveTemplate.Proofs.Template.Levels
import LiveTemplate.Proofs.Layers
import LiveTemplate.Proofs.Dom.Keyed
import LiveTemplate.Proofs.Dom.Attributes
import LiveTemplate.Proofs.Json.Form
import LiveTemplate.Proofs.Json.Tokens
import LiveTemplate.Proofs.Json.Values
import LiveTemplate.Proofs.Json.Compact
import LiveTemplate.Proofs.LoadedOptions
