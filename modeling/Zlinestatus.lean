import Zlinestatus.Lib.Tokens
import Zlinestatus.Lib.LastMax
import Zlinestatus.Lib.Raster
import Zlinestatus.Lib.Run
import Zlinestatus.Lib.Round
import Zlinestatus.Lib.Alloc
import Zlinestatus.Lib.Little
import Zlinestatus.Lib.Codec
import Zlinestatus.Lib.ArrayMap
import Zlinestatus.Lib.Channel
import Zlinestatus.Lib.Framing
import Zlinestatus.Model.Bytes
import Zlinestatus.Model.Float
import Zlinestatus.Model.Args
import Zlinestatus.Model.Style
import Zlinestatus.Model.Load
import Zlinestatus.Model.Message
import Zlinestatus.Model.Render
import Zlinestatus.Model.Main
import Zlinestatus.Model.Wire
import Zlinestatus.Model.Objects
import Zlinestatus.Model.SwapChain
import Zlinestatus.Model.Renderer
import Zlinestatus.Model.Compositor
import Zlinestatus.Model.Socket
import Zlinestatus.Model.Writer
import Zlinestatus.Model.Rounds
import Zlinestatus.Model.Sender
import Zlinestatus.Theorems.Received
import Zlinestatus.Theorems.Roundtrip
import Zlinestatus.Theorems.StyleFile
import Zlinestatus.Theorems.Pick
import Zlinestatus.Theorems.Specificity
import Zlinestatus.Theorems.Fires
import Zlinestatus.Theorems.Frame
import Zlinestatus.Theorems.Color
import Zlinestatus.Theorems.Length
import Zlinestatus.Theorems.Steps
import Zlinestatus.Theorems.Protocol
import Zlinestatus.Theorems.Resize
import Zlinestatus.Theorems.Withheld
import Zlinestatus.Theorems.Display
import Zlinestatus.Theorems.FirstFrame
import Zlinestatus.Theorems.Rectangle
import Zlinestatus.Theorems.Reference
import Zlinestatus.Theorems.Lines
import Zlinestatus.Theorems.Arguments
import Zlinestatus.Theorems.Limits
import Zlinestatus.Theorems.HexGrammar
import Zlinestatus.Theorems.Load
import Zlinestatus.Theorems.Wire
import Zlinestatus.Theorems.SwapChain
import Zlinestatus.Theorems.Compositor
import Zlinestatus.Theorems.Stages
import Zlinestatus.Theorems.Synced
import Zlinestatus.Theorems.Drawing
import Zlinestatus.Theorems.Interleaving
import Zlinestatus.Theorems.Writer
import Zlinestatus.Theorems.Socket
import Zlinestatus.Theorems.Progress
import Zlinestatus.Theorems.Draining
import Zlinestatus.Theorems.Rounds
import Zlinestatus.Theorems.Refinement
import Zlinestatus.Theorems.Sender
