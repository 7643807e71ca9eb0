import OciRegistry.Types
import OciRegistry.Ociref
import OciRegistry.Funcs
import OciRegistry.Ocimem.State
import OciRegistry.Ocimem.Registry
import OciRegistry.Ocimem.Writer
import OciRegistry.Ocimem.RefersTo
import OciRegistry.Ocimem.Upload
import OciRegistry.Ocimem.Run
import OciRegistry.Ocimem.Content
import OciRegistry.Ocimem.Invariants
import OciRegistry.Ocimem.Contract
import OciRegistry.Ocimem.Sessions
import OciRegistry.Ocimem.History
import OciRegistry.Ocimem.Isolation
import OciRegistry.Ocifilter.Immutable
import OciRegistry.Ocifilter.Race
import OciRegistry.Ocibuilder.Builder
import OciRegistry.Ocibuilder.PushLayer
import OciRegistry.Ocibuilder.Calls
import OciRegistry.Ocibuilder.InMemory
