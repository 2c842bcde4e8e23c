import Harvest.Json.Reader
import Harvest.Proofs.AllOrNothing
import Harvest.Proofs.Conservation
import Harvest.Proofs.EarlyFaults
import Harvest.Proofs.HostConfinement
import Harvest.Proofs.Isolation
import Harvest.Proofs.Merging
import Harvest.Proofs.OffsetPages
import Harvest.Proofs.Roots
import Harvest.Proofs.Schedule.JobsInOrder
import Harvest.Proofs.Template.Filling
import Harvest.Records
import Harvest.Scripted.World
import Harvest.Wire.Session
import Harvest.Proofs.Derailed
import Harvest.Proofs.Declared
import Harvest.Proofs.Shape
import Harvest.Proofs.Respelled
import Harvest.Proofs.Interchange
import Harvest.Proofs.Endings
import Harvest.Proofs.Carried
import Harvest.Proofs.TokenChain
import Harvest.Proofs.NumberedPages
import Harvest.Proofs.Trusted
import Harvest.Proofs.Mistakes
import Harvest.Proofs.Layers
import Harvest.Proofs.Staging
import Harvest.Proofs.Precedence
import Harvest.Proofs.FailFast
import Harvest.Proofs.Combinations
import Harvest.Proofs.Delivered
import Harvest.Proofs.Named
import Harvest.Proofs.Misled
import Harvest.Proofs.Resent
import Harvest.Proofs.Reported
import Harvest.Proofs.Answered
import Harvest.Proofs.Sessions
