import KzgCeremony.Text
import KzgCeremony.IdentityString
import KzgCeremony.CurveEngine
import KzgCeremony.AddTau
import KzgCeremony.EcdsaBinding
import KzgCeremony.XmdExpander
import KzgCeremony.Lobby
import KzgCeremony.TryContribute
import KzgCeremony.Handlers
