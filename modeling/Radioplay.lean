import Radioplay.Library.Shelves
import Radioplay.Main
import Radioplay.Proofs.Artifact.RoundTrip
import Radioplay.Proofs.Command.Escapes
import Radioplay.Proofs.Command.Rendering
import Radioplay.Proofs.Energy.Outcome
import Radioplay.Proofs.Energy.SingleFlight
import Radioplay.Proofs.Generator.Fairness
import Radioplay.Proofs.Generator.Period
import Radioplay.Proofs.Library.Discovery
import Radioplay.Proofs.Library.FirstSuccess
import Radioplay.Proofs.Manifest.Written
import Radioplay.Proofs.Preview.Placement
import Radioplay.Proofs.Preview.Tally
import Radioplay.Proofs.Script.Cutting
import Radioplay.Proofs.Script.Independence
import Radioplay.Proofs.Script.Mark
import Radioplay.Proofs.Script.Meaning
import Radioplay.Proofs.Script.Seeds
import Radioplay.Proofs.Script.WellFormed
import Radioplay.Proofs.Slug.NormalForm
import Radioplay.Proofs.Sound.FirstChannel
import Radioplay.Proofs.Timeline.Calls
import Radioplay.Proofs.Timeline.Clock
import Radioplay.Proofs.Timeline.CutPoints
import Radioplay.Proofs.Timeline.Pauses
import Radioplay.Proofs.Timeline.Scenes
import Radioplay.Proofs.Timeline.Seed
import Radioplay.Proofs.Timing.Keys
import Radioplay.Proofs.Window.Bounds
import Radioplay.Proofs.Window.Snap
