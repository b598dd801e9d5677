import IdlBridge.Adapter.Classes
import IdlBridge.Adapter.Error
import IdlBridge.Adapter.Layout
import IdlBridge.Adapter.Method
import IdlBridge.Adapter.Naming
import IdlBridge.Adapter.Pass
import IdlBridge.Adapter.Scopes
import IdlBridge.Adapter.Settings
import IdlBridge.Adapter.Step
import IdlBridge.Adapter.TypeText
import IdlBridge.Command.Options
import IdlBridge.Command.Run
import IdlBridge.DeclTree.Basic
import IdlBridge.DeclTree.Draft
import IdlBridge.DeclTree.Inheritance
import IdlBridge.DeclTree.Visits
import IdlBridge.Declaration
import IdlBridge.Document.Outline
import IdlBridge.Document.Resolution
import IdlBridge.IdlType
import IdlBridge.Live.Remote
import IdlBridge.Live.Session
import IdlBridge.Live.World
import IdlBridge.Live.Wrapper
import IdlBridge.LoadError
import IdlBridge.Main
import IdlBridge.Markup.Element
import IdlBridge.Markup.Fault
import IdlBridge.Markup.Printer
import IdlBridge.Markup.Reference
import IdlBridge.Markup.Token
import IdlBridge.Marshal.Conversion
import IdlBridge.Marshal.Value
import IdlBridge.Pragma
import IdlBridge.ScopedName
import IdlBridge.Storage.Error
import IdlBridge.Storage.Files
import IdlBridge.Storage.Path
import IdlBridge.Text.Blank
import IdlBridge.Text.Cut
import IdlBridge.Text.Printable
import IdlBridge.Proofs.DeclTree.Growth
import IdlBridge.Proofs.Document.Registration
import IdlBridge.Proofs.Document.Meaning
import IdlBridge.Proofs.Document.Resolver
import IdlBridge.Proofs.Document.StoredTypes
import IdlBridge.Proofs.Document.LoadedTypes
import IdlBridge.Proofs.DeclTree.Linearization
import IdlBridge.Proofs.Adapter.Downcasts
import IdlBridge.Proofs.DeclTree.Construction
import IdlBridge.Proofs.DeclTree.Walk
import IdlBridge.Proofs.Text.Braces
import IdlBridge.Proofs.Adapter.Layouts
import IdlBridge.Proofs.Adapter.Bodies
import IdlBridge.Proofs.Adapter.Spelling
import IdlBridge.Proofs.Adapter.ClassLayouts
import IdlBridge.Proofs.Adapter.Segments
import IdlBridge.Proofs.Adapter.Namespaces
import IdlBridge.Proofs.Adapter.SheetText
import IdlBridge.Proofs.Adapter.Signatures
import IdlBridge.Proofs.Live.Counting
import IdlBridge.Proofs.Live.Conservation
import IdlBridge.Proofs.DeclTree.Placement
import IdlBridge.Proofs.DeclTree.Exposure
import IdlBridge.Proofs.Document.Nesting
import IdlBridge.Proofs.Live.Factories
import IdlBridge.Proofs.Adapter.Statements
import IdlBridge.Proofs.Adapter.Execution
import IdlBridge.Proofs.Adapter.Conversions
import IdlBridge.Proofs.Adapter.Traces
import IdlBridge.Proofs.Adapter.Ownership
import IdlBridge.Proofs.DeclTree.Index
import IdlBridge.Proofs.DeclTree.Forwards
import IdlBridge.Proofs.Document.Unresolved
import IdlBridge.Proofs.Document.ClosedTypes
import IdlBridge.Proofs.DeclTree.References
import IdlBridge.Proofs.Document.Items
import IdlBridge.Proofs.Document.Arrangement
import IdlBridge.Proofs.DeclTree.Listing
import IdlBridge.Proofs.Document.Description
import IdlBridge.Proofs.Document.Loading
import IdlBridge.Proofs.Document.Image
import IdlBridge.Proofs.Document.References
import IdlBridge.Proofs.Adapter.Totality
import IdlBridge.Proofs.Document.Facts
import IdlBridge.Proofs.Document.Reordering
import IdlBridge.Proofs.Document.FactIndex
import IdlBridge.Proofs.DeclTree.Correspondence
import IdlBridge.Proofs.Document.Agreement
import IdlBridge.Proofs.Document.Offers
import IdlBridge.Proofs.Document.OrderIndependence
import IdlBridge.Proofs.Live.Wrapping
import IdlBridge.Proofs.Marshal.Mirror
import IdlBridge.Proofs.DeclTree.Tour
import IdlBridge.Proofs.Adapter.Directives
import IdlBridge.Proofs.Adapter.Includes
import IdlBridge.Proofs.Adapter.Concatenation
import IdlBridge.Proofs.Markup.Attributes
import IdlBridge.Proofs.Markup.RoundTrip
import IdlBridge.Proofs.Document.Tags
import IdlBridge.Proofs.Document.Kinds
import IdlBridge.Proofs.Adapter.Balance
import IdlBridge.Proofs.Adapter.Identifiers
import IdlBridge.Proofs.Document.NamelessTypes
import IdlBridge.Proofs.Document.PragmaContents
import IdlBridge.Proofs.DeclTree.Aliases
import IdlBridge.Proofs.Adapter.ScopeRuns
import IdlBridge.Proofs.Live.Lifetime
import IdlBridge.Proofs.Storage.Sights
import IdlBridge.Proofs.Command.Targets
import IdlBridge.Proofs.Command.Courses
import IdlBridge.Proofs.Command.Emissions
import IdlBridge.Proofs.Text.Spellings
import IdlBridge.Proofs.Live.Keys
