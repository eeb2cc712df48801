import Lithos.Time
import Lithos.Decimal
import Lithos.Utf8
import Lithos.Monitor.Queue
import Lithos.Monitor.Basic
import Lithos.Monitor.Run
import Lithos.Monitor.Tables
import Lithos.Monitor.Owners
import Lithos.Monitor.Backoff
import Lithos.Monitor.Order
import Lithos.Monitor.Supervised
import Lithos.Tree.Args
import Lithos.Tree.Reconcile
import Lithos.Tree.Adoption
import Lithos.Tree.Supervise
import Lithos.Container.Vars
import Lithos.Container.Config
import Lithos.Sandbox.Range
import Lithos.Sandbox.Path
import Lithos.Ps.Ascii
import Lithos.Ps.Table
import Lithos.Ps.Printer
import Lithos.Cmd
