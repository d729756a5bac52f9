import Mago.Syntax
import Mago.Document
import Mago.Printing
import Mago.Formatter
import Mago.Format.Call
import Mago.Format.ChainStyles
import Mago.Format.ChainBase
import Mago.Format.Parameters
import Mago.Format.Block
import Mago.Format.DanglingComments
import Mago.Source.Path
import Mago.Source.Exclusion
import Mago.Source.Walk
import Mago.Source.Load
import Mago.Source.Names
import Mago.Source.Excludes
import Mago.Source.Stubs
import Mago.Source.StubsFile
