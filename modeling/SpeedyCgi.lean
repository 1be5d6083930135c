import SpeedyCgi.FileLock.Incarnation
import SpeedyCgi.TempFile.FollowFrontend
import SpeedyCgi.TempFile.Order
import SpeedyCgi.TempFile.FollowParent
import SpeedyCgi.TempFile.Retained
import SpeedyCgi.TempFile.Search
import SpeedyCgi.TempFile.Room
import SpeedyCgi.TempFile.Cycle
import SpeedyCgi.Request.Framing
import SpeedyCgi.Options.Argv
import SpeedyCgi.Options.ExecArgv
import SpeedyCgi.Options.SaveRestore
import SpeedyCgi.Options.Shbang
import SpeedyCgi.Options.Timeout
import SpeedyCgi.Copy.CircInt
import SpeedyCgi.Copy.Arrival
import SpeedyCgi.Copy.Loop
import SpeedyCgi.Copy.Exit
import SpeedyCgi.Signal.Recorder
import SpeedyCgi.Cwd.Devino
import SpeedyCgi.Ipc.Listener
import SpeedyCgi.Perl.Handler
import SpeedyCgi.Perl.Session
