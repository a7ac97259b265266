import Settler.Main
import Settler.Calendar.Reading
import Settler.Cron.Next
import Settler.Cron.Parser
import Settler.Daemon.Surface
import Settler.Json.Display
import Settler.Json.Parser
import Settler.Json.Writer
import Settler.Metrics.Exposition
import Settler.Script.Peer
import Settler.Script.Worker
import Settler.Settings.Load
import Settler.Settings.Names
import Settler.Supervisor.Drive
import Settler.Supervisor.Report
import Settler.Worker.Solo
import Settler.Proofs.Journal.Exchange
import Settler.Proofs.Supervisor.Step
import Settler.Proofs.Worker.Talk
import Settler.Proofs.Supervisor.Transcript
import Settler.Proofs.Supervisor.Scripts
import Settler.Proofs.Daemon.Chronicle
import Settler.Proofs.Worker.Calculator
import Settler.Proofs.Daemon.Finalizing
import Settler.Proofs.Daemon.Paying
import Settler.Proofs.Worker.Solo
import Settler.Proofs.Worker.SweepRun
import Settler.Proofs.Calendar.Months
import Settler.Proofs.Cron.Next
import Settler.Proofs.Supervisor.Single
import Settler.Proofs.Supervisor.NextRuns
import Settler.Proofs.Supervisor.RestartPolicy
import Settler.Proofs.Settlement.Answers
import Settler.Proofs.Cron.Parser
import Settler.Proofs.Supervisor.Health
import Settler.Proofs.Daemon.Verdicts
import Settler.Proofs.Cron.Horizon
import Settler.Proofs.Worker.Malformed
import Settler.Proofs.Daemon.Isolation
import Settler.Proofs.Http.Addresses
import Settler.Proofs.Settlement.Calls
import Settler.Proofs.Worker.Refusals
import Settler.Proofs.Text.Numerals
import Settler.Proofs.Worker.LiveEpoch
import Settler.Proofs.Summary.Delivery
import Settler.Proofs.Worker.Postings
import Settler.Proofs.Cron.SteppedStart
import Settler.Proofs.Supervisor.SlidingWindow
import Settler.Proofs.Supervisor.Flags
import Settler.Proofs.Settings.Guards
