import ShowerTrack.Alignment
import ShowerTrack.Calorimeter.Block
import ShowerTrack.Calorimeter.Cluster
import ShowerTrack.Calorimeter.Grid
import ShowerTrack.Calorimeter.Hit
import ShowerTrack.Calorimeter.Island
import ShowerTrack.Calorimeter.Primex
import ShowerTrack.Calorimeter.Profile
import ShowerTrack.Calorimeter.Sectors
import ShowerTrack.Calorimeter.Shape
import ShowerTrack.Calorimeter.Sharing
import ShowerTrack.Calorimeter.Square
import ShowerTrack.Calorimeter.State
import ShowerTrack.CommandLine
import ShowerTrack.Decimal.Reading
import ShowerTrack.Decimal.Shortest
import ShowerTrack.Detector
import ShowerTrack.Event
import ShowerTrack.Failure
import ShowerTrack.Flags
import ShowerTrack.Folder
import ShowerTrack.Folder.Path
import ShowerTrack.Main
import ShowerTrack.Matching
import ShowerTrack.Notice
import ShowerTrack.Partition
import ShowerTrack.Proofs.Accounts
import ShowerTrack.Proofs.Agreement
import ShowerTrack.Proofs.Averages
import ShowerTrack.Proofs.Carried
import ShowerTrack.Proofs.Checked.Arena
import ShowerTrack.Proofs.Checked.Chamber
import ShowerTrack.Proofs.Checked.Forest
import ShowerTrack.Proofs.Checked.Grid
import ShowerTrack.Proofs.Checked.Island
import ShowerTrack.Proofs.Checked.Primex
import ShowerTrack.Proofs.Checked.Profile
import ShowerTrack.Proofs.Checked.Session
import ShowerTrack.Proofs.Checked.Sharing
import ShowerTrack.Proofs.Checked.Square
import ShowerTrack.Proofs.Clearing
import ShowerTrack.Proofs.Columns
import ShowerTrack.Proofs.Components
import ShowerTrack.Proofs.Connected
import ShowerTrack.Proofs.Content
import ShowerTrack.Proofs.Crew
import ShowerTrack.Proofs.Dealing
import ShowerTrack.Proofs.Distances
import ShowerTrack.Proofs.Drawn
import ShowerTrack.Proofs.Exact
import ShowerTrack.Proofs.Filling
import ShowerTrack.Proofs.Flood
import ShowerTrack.Proofs.Forest
import ShowerTrack.Proofs.Glued
import ShowerTrack.Proofs.GridClusters
import ShowerTrack.Proofs.Interpolation
import ShowerTrack.Proofs.IslandGroups
import ShowerTrack.Proofs.Islands
import ShowerTrack.Proofs.Keyed
import ShowerTrack.Proofs.Levels
import ShowerTrack.Proofs.Order
import ShowerTrack.Proofs.Painted
import ShowerTrack.Proofs.Recovery
import ShowerTrack.Proofs.Reordering
import ShowerTrack.Proofs.Shares
import ShowerTrack.Proofs.SplitEnergy
import ShowerTrack.Proofs.Stretches
import ShowerTrack.Proofs.StripRuns
import ShowerTrack.Proofs.Summits
import ShowerTrack.Proofs.Tables
import ShowerTrack.Proofs.Ties
import ShowerTrack.Proofs.Valleys
import ShowerTrack.Proofs.Windows
import ShowerTrack.Reconstructor
import ShowerTrack.Records.Config
import ShowerTrack.Records.Inputs
import ShowerTrack.Records.Pedestals
import ShowerTrack.Records.Results
import ShowerTrack.Records.Setup
import ShowerTrack.Run
import ShowerTrack.Scalar
import ShowerTrack.Settings
import ShowerTrack.Text.Quoted
import ShowerTrack.Text.Timestamp
import ShowerTrack.Tracker.Chamber
import ShowerTrack.Tracker.Clustering
import ShowerTrack.Tracker.Pedestal
import ShowerTrack.Tracker.Plane
import ShowerTrack.Tracker.Strip
import ShowerTrack.Workers
import ShowerTrack.Yaml.Cursor
import ShowerTrack.Yaml.Decode
import ShowerTrack.Yaml.Node
import ShowerTrack.Yaml.Plain
import ShowerTrack.Yaml.Printer
import ShowerTrack.Yaml.Record
import ShowerTrack.Yaml.Scalar
import ShowerTrack.Yaml.Scanner
import ShowerTrack.Yaml.Tag
import ShowerTrack.Yaml.Token
import ShowerTrack.Yaml.Value
import ShowerTrack.Proofs.Archipelago
import ShowerTrack.Proofs.HitPaths
import ShowerTrack.Proofs.Centers
import ShowerTrack.Proofs.Takeovers
import ShowerTrack.Proofs.Calls
import ShowerTrack.Proofs.Foremost
import ShowerTrack.Proofs.Merged
import ShowerTrack.Proofs.Maxima
import ShowerTrack.Proofs.Lengths
import ShowerTrack.Proofs.Nearest
import ShowerTrack.Proofs.Flanks
import ShowerTrack.Proofs.Assemblies
import ShowerTrack.Proofs.Leakage
import ShowerTrack.Proofs.Words
import ShowerTrack.Proofs.Candidates
import ShowerTrack.Proofs.Capacity
import ShowerTrack.Proofs.History
import ShowerTrack.Proofs.Positions
import ShowerTrack.Proofs.Guarded
import ShowerTrack.Proofs.Crossings
import ShowerTrack.Proofs.FirstHits
import ShowerTrack.Proofs.Wiring
import ShowerTrack.Proofs.ClusterPositions
import ShowerTrack.Proofs.Traffic
import ShowerTrack.Proofs.Rotations
import ShowerTrack.Proofs.FrameChoice
import ShowerTrack.Proofs.Tents
