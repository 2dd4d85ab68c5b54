import Libcamera.Request.Basic
import Libcamera.Request.Methods
import Libcamera.Request.Run
import Libcamera.Request.Invariant
import Libcamera.Request.Bindings
import Libcamera.Request.Completion
import Libcamera.Request.Status
import Libcamera.MediaObject
import Libcamera.Ipc.TestRun
import Libcamera.Ipc.Commands
import Libcamera.Ipc.FdOrder
import Libcamera.LogProcess.Run
