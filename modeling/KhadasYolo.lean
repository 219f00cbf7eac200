import KhadasYolo.Pipeline.Lifetime
import KhadasYolo.Pipeline.Order
import KhadasYolo.Pipeline.Responses
import KhadasYolo.Pipeline.Workers
import KhadasYolo.Pipeline.Progress
import KhadasYolo.Pipeline.Shutdown
import KhadasYolo.Pipeline.Publication
import KhadasYolo.Pipeline.Accounting
import KhadasYolo.Pipeline.Window
import KhadasYolo.Pipeline.Monitors
import KhadasYolo.Summarizer.Cooldown
import KhadasYolo.Summarizer.Episodes
import KhadasYolo.Summarizer.NpuWindow
import KhadasYolo.Summarizer.Prompt
import KhadasYolo.Dataflow.RoundTrip
import KhadasYolo.Dataflow.Alignment
import KhadasYolo.Dataflow.BoxArithmetic
import KhadasYolo.Dataflow.Presence
import KhadasYolo.Dataflow.Receivers
import KhadasYolo.Dataflow.Restart
import KhadasYolo.Dataflow.Detector
import KhadasYolo.Dataflow.EventsReceiver
import KhadasYolo.Tracker.Runs
import KhadasYolo.Tracker.Stability
import KhadasYolo.Tracker.Truncation
import KhadasYolo.Tracker.Store
import KhadasYolo.Temporal.Runs
import KhadasYolo.Temporal.Traces
import KhadasYolo.Temporal.Velocity
import KhadasYolo.Ipc.Delivery
import KhadasYolo.Ipc.RequestText
import KhadasYolo.Ipc.Sending
import KhadasYolo.Ipc.Session
import KhadasYolo.Ipc.Teardown
import KhadasYolo.Ipc.QueueMonitor
import KhadasYolo.Ipc.ControlClient
import KhadasYolo.Ipc.ServiceSockets
import KhadasYolo.Postprocess.BoxRounding
import KhadasYolo.Postprocess.Frame
import KhadasYolo.Postprocess.Labels
import KhadasYolo.Postprocess.SortVectors
import KhadasYolo.Postprocess.Threshold
import KhadasYolo.Postprocess.Tensors
import KhadasYolo.Rga.Letterbox
import KhadasYolo.Rtsp.Shutdown
import KhadasYolo.Camera.Buffers
