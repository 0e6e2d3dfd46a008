import Facade.Main
import Facade.Mapping.Registry
import Facade.Proofs.ConversionTyping
import Facade.Proofs.Exportable
import Facade.Proofs.OrderIndependence
import Facade.Proofs.Routing
import Facade.Proofs.Scope
import Facade.Proofs.SessionStart
import Facade.Proofs.RegistryRuns
import Facade.Proofs.Overriding
import Facade.Proofs.Imports
import Facade.Proofs.UniqueReading
import Facade.Proofs.Adapters
import Facade.Proofs.ExactOutput
import Facade.Proofs.RefusedClasses
import Facade.Proofs.MemberFaults
import Facade.Proofs.ClassKeys
import Facade.Proofs.ReferenceRoundTrip
import Facade.Proofs.InstanceForms
import Facade.Proofs.NameResolution
import Facade.Proofs.NestedTypes
import Facade.Proofs.Shadowing
import Facade.Proofs.ErasedNames
import Facade.Proofs.SnippetNames
import Facade.Proofs.Instances
import Facade.Proofs.ExtractedClasses
import Facade.Proofs.ClassMembers
import Facade.Proofs.WritablePaths
import Facade.Proofs.WrittenResults
import Facade.Proofs.PositionalNames
import Facade.Proofs.SubstitutionLaws
import Facade.Proofs.EnumeratedEntries
import Facade.Proofs.Delegates
