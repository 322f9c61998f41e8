import Overlay.Layer.Definition
import Overlay.Main
import Overlay.SchemaText.Reader
import Overlay.Proofs.SchemaText.Acceptance
import Overlay.Proofs.SchemaText.RoundTrip
import Overlay.Proofs.Layer.Build
import Overlay.Proofs.Layer.Relations
import Overlay.Proofs.Layer.Requirements
import Overlay.Proofs.Layer.Unrelated
import Overlay.Proofs.Schema.Resolution
import Overlay.Proofs.Case.Layer
import Overlay.Proofs.Redirection.KeyChange
import Overlay.Proofs.Redirection.Insertion
import Overlay.Proofs.Redirection.Simulation
import Overlay.Proofs.Layer.Guards
import Overlay.Proofs.Layer.TableOrder
import Overlay.Proofs.Layer.Dependents
import Overlay.Proofs.Layer.Correspondence
import Overlay.Proofs.CommandLine.Verdict
import Overlay.Proofs.SchemaText.Layout
import Overlay.Proofs.SchemaText.Location
import Overlay.Proofs.Layer.Blocks
import Overlay.Proofs.Layer.Spelling
import Overlay.Proofs.SchemaText.Respellable
import Overlay.Proofs.Layer.StatusColumn
import Overlay.Proofs.SchemaText.Repetition
import Overlay.Proofs.SchemaText.ConstraintOrder
import Overlay.Proofs.Layer.Triggers
import Overlay.Proofs.Layer.Messages
import Overlay.Proofs.Layer.Statements
import Overlay.Proofs.CommandLine.Resolution
import Overlay.Proofs.SchemaText.Slicing
