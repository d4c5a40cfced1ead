import Roster.Interleaving
import Roster.Proofs.Admission
import Roster.Proofs.Authority
import Roster.Proofs.Failure
import Roster.Proofs.Ownership
import Roster.Record.Basic
import Roster.Session
import Roster.Store.Database.Basic
import Roster.Store.Tables
import Roster.Proofs.Capacity
import Roster.Proofs.History
import Roster.Proofs.LoweredLimit
import Roster.Proofs.LateInvitation
import Roster.Proofs.LostUpdate
import Roster.Proofs.WellFormed
import Roster.Proofs.Agreement
import Roster.Proofs.Secrecy
import Roster.Proofs.DeletedTeam
import Roster.Proofs.Tables.Unique
import Roster.Proofs.Usage
import Roster.Proofs.FreeSeats
import Roster.Proofs.Verdict
import Roster.Proofs.LateAcceptance
import Roster.Proofs.SoleWinner
import Roster.Proofs.Independence
import Roster.Proofs.Amendment
import Roster.Proofs.Invite
import Roster.Proofs.Addressee
import Roster.Proofs.Database.TextOrder
import Roster.Proofs.Creation
import Roster.Proofs.Standing
import Roster.Proofs.Expiry
import Roster.Proofs.Atomicity
import Roster.Proofs.Slug
import Roster.Proofs.StaysExpired
import Roster.Proofs.Paging
import Roster.Proofs.MutableFields
import Roster.Proofs.AddressGrammar
import Roster.Proofs.Reinvitation
import Roster.Proofs.Log.Actions
import Roster.Proofs.Record
import Roster.Proofs.Directory
import Roster.Proofs.Token
