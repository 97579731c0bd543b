import LeaderElection.Main
import LeaderElection.Proofs.Admission
import LeaderElection.Proofs.Assembly.Basic
import LeaderElection.Proofs.Assembly.Canvass
import LeaderElection.Proofs.Assembly.Leaders
import LeaderElection.Proofs.Assembly.Origin
import LeaderElection.Proofs.Assembly.Votes
import LeaderElection.Proofs.Basic
import LeaderElection.Proofs.Bench
import LeaderElection.Proofs.Cluster.Acts
import LeaderElection.Proofs.Cluster.Calm
import LeaderElection.Proofs.Cluster.Closing
import LeaderElection.Proofs.Cluster.Homely
import LeaderElection.Proofs.Cluster.Orderly
import LeaderElection.Proofs.Cluster.Shutdown
import LeaderElection.Proofs.Cluster.Stability
import LeaderElection.Proofs.Cluster.Steady
import LeaderElection.Proofs.Cluster.View
import LeaderElection.Proofs.Company
import LeaderElection.Proofs.Courier.Basic
import LeaderElection.Proofs.Courier.Outcome
import LeaderElection.Proofs.Creation
import LeaderElection.Proofs.Desk.Basic
import LeaderElection.Proofs.Desk.Beats
import LeaderElection.Proofs.Desk.Bench
import LeaderElection.Proofs.Desk.Outgoing
import LeaderElection.Proofs.Desk.Quiet
import LeaderElection.Proofs.Desk.Vigil
import LeaderElection.Proofs.Detector
import LeaderElection.Proofs.Entrance
import LeaderElection.Proofs.Errands
import LeaderElection.Proofs.Feed
import LeaderElection.Proofs.Hearing
import LeaderElection.Proofs.Lookout
import LeaderElection.Proofs.Mailbox
import LeaderElection.Proofs.Mesh.Assembly
import LeaderElection.Proofs.Mesh.Basic
import LeaderElection.Proofs.Mesh.Cluster
import LeaderElection.Proofs.Mesh.Minority
import LeaderElection.Proofs.Mesh.View
import LeaderElection.Proofs.Monitor.Basic
import LeaderElection.Proofs.Monitor.Schedule
import LeaderElection.Proofs.Network
import LeaderElection.Proofs.Node.Allegiance
import LeaderElection.Proofs.Node.Change
import LeaderElection.Proofs.Node.Clock
import LeaderElection.Proofs.Node.Coherent
import LeaderElection.Proofs.Node.Deadline
import LeaderElection.Proofs.Node.Decision
import LeaderElection.Proofs.Node.Exchange
import LeaderElection.Proofs.Node.Lives
import LeaderElection.Proofs.Node.Pace
import LeaderElection.Proofs.Node.Published
import LeaderElection.Proofs.Node.Replies
import LeaderElection.Proofs.Node.Round
import LeaderElection.Proofs.Node.Run
import LeaderElection.Proofs.Node.Sends
import LeaderElection.Proofs.Node.Vote
import LeaderElection.Proofs.Orders
import LeaderElection.Proofs.PeerList
import LeaderElection.Proofs.Roster
import LeaderElection.Proofs.Shutdown
import LeaderElection.Proofs.Station
import LeaderElection.Proofs.Tenure
import LeaderElection.Proofs.Text
import LeaderElection.Proofs.Timer
import LeaderElection.Proofs.Traffic
import LeaderElection.Proofs.Transit
import LeaderElection.Proofs.Wire.Codec
import LeaderElection.Proofs.Wire.Field
import LeaderElection.Proofs.Wire.Sender
import LeaderElection.Proofs.Wire.Truncation
import LeaderElection.Remote
import LeaderElection.Simulation.Bench
import LeaderElection.Simulation.Cluster.Basic
import LeaderElection.Simulation.Cluster.Owner
import LeaderElection.Simulation.Lookout
import LeaderElection.Simulation.Schedule
import LeaderElection.Simulation.Traffic
