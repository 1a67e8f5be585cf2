import DownloadTriage.Collector.Discovery
import DownloadTriage.Dashboard.Publisher
import DownloadTriage.Main
import DownloadTriage.Model.Child
import DownloadTriage.Process.Host
import DownloadTriage.Proofs.Closing
import DownloadTriage.Proofs.Machine
import DownloadTriage.Proofs.Course
import DownloadTriage.Proofs.Upload
import DownloadTriage.Proofs.Sharing
import DownloadTriage.Proofs.Marking
import DownloadTriage.Proofs.Timer
import DownloadTriage.Proofs.Deadline
import DownloadTriage.Proofs.Pending
import DownloadTriage.Proofs.Arrival
import DownloadTriage.Proofs.Rivalry
import DownloadTriage.Proofs.Roundtrip
import DownloadTriage.Proofs.Publishing
import DownloadTriage.Proofs.Release
import DownloadTriage.Proofs.Truncation
import DownloadTriage.Proofs.Settling
import DownloadTriage.Proofs.Recall
import DownloadTriage.Proofs.Rounds
import DownloadTriage.Proofs.Answers
import DownloadTriage.Pe.Image
import DownloadTriage.Proofs.Lossy
import DownloadTriage.Proofs.Image
import DownloadTriage.Proofs.Datagrams
import DownloadTriage.Proofs.Store
import DownloadTriage.Proofs.Beats
import DownloadTriage.Proofs.Pulse
import DownloadTriage.Proofs.Cadence
import DownloadTriage.Proofs.Standstill
import DownloadTriage.Proofs.Streaming
import DownloadTriage.Proofs.Frames
import DownloadTriage.Proofs.Recorded
