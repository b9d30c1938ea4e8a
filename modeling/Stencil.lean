import Stencil.Main
import Stencil.Watch
import Stencil.Proofs.Fill.Confinement
import Stencil.Proofs.Fill.AllOrNothing
import Stencil.Proofs.Fill.Intact
import Stencil.Proofs.Fill.Modes
import Stencil.Proofs.Clone.Removal
import Stencil.Proofs.Clone.Ignored
import Stencil.Proofs.Clone.Preview
import Stencil.Proofs.Clone.Commands
import Stencil.Proofs.DryRun
import Stencil.Proofs.Binding
import Stencil.Proofs.Checking
import Stencil.Proofs.Files.Collecting
import Stencil.Proofs.Defaults
import Stencil.Proofs.Rerun
import Stencil.Proofs.Relevance
import Stencil.Proofs.Hiding
import Stencil.Proofs.Waiting
import Stencil.Proofs.Fill.Printing
import Stencil.Proofs.Path.Confining
import Stencil.Proofs.Files.Refusing
import Stencil.Proofs.Files.Demand
import Stencil.Proofs.Starter.Making
import Stencil.Proofs.Path.Landing
import Stencil.Proofs.Fitting
import Stencil.Proofs.Version
import Stencil.Proofs.Searching
import Stencil.Proofs.Interchange
import Stencil.Proofs.ShapeText
import Stencil.Proofs.Ignoring
import Stencil.Proofs.GivenOrder
import Stencil.Proofs.Naming
