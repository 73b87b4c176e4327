import EventBroker.Simulation.Numbering
import EventBroker.Simulation.Session
import EventBroker.Proofs.Conservation
import EventBroker.Proofs.Eligibility
import EventBroker.Proofs.Evicting
import EventBroker.Proofs.Releasing
import EventBroker.Proofs.Acknowledging
import EventBroker.Proofs.Retention
import EventBroker.Proofs.Effects.Telling
import EventBroker.Proofs.Flushing
import EventBroker.Proofs.Fates
import EventBroker.Proofs.Reckoning
import EventBroker.Proofs.Accounting
import EventBroker.Proofs.Milestones
import EventBroker.Proofs.Publishing
import EventBroker.Proofs.Ceiling
import EventBroker.Proofs.Occupancy
import EventBroker.Proofs.Backstop
import EventBroker.Proofs.Offering
import EventBroker.Proofs.Attempting
import EventBroker.Proofs.Backlog
import EventBroker.Proofs.Stickies
import EventBroker.Proofs.Capturing
import EventBroker.Proofs.Payloads
import EventBroker.Proofs.Tenancy
import EventBroker.Proofs.Airing
import EventBroker.Proofs.Subsiding
import EventBroker.Proofs.Resolving
import EventBroker.Proofs.Granting
import EventBroker.Proofs.Restoring
import EventBroker.Proofs.Balancing
import EventBroker.Proofs.Halting
import EventBroker.Proofs.Budgeting
import EventBroker.Proofs.Marking
import EventBroker.Proofs.Misuse
import EventBroker.Proofs.Pumping
