import ReputationPassport.Passport.Soulbound
import ReputationPassport.Passport.Lock
import ReputationPassport.Passport.Lifecycle
import ReputationPassport.Passport.Index
import ReputationPassport.Attestation.Validity
import ReputationPassport.Attestation.Revocation
import ReputationPassport.Attestation.Isolation
import ReputationPassport.Attestation.Freshness
import ReputationPassport.Attestation.Subjects
import ReputationPassport.Endorsement.Aggregates
import ReputationPassport.Dispute.CleanStart
import ReputationPassport.Dispute.Votes
import ReputationPassport.Dispute.Period
import ReputationPassport.Facade.Filing
import ReputationPassport.Oracle.Score
import ReputationPassport.Oracle.Proof
import ReputationPassport.Contracts.EmergencyStop
import ReputationPassport.Middleware.Admission
import ReputationPassport.Middleware.Isolation
import ReputationPassport.Middleware.Auth
import ReputationPassport.Service.Credentials
import ReputationPassport.Service.Reputation
import ReputationPassport.Service.FailedRead
import ReputationPassport.Service.ScoreRange
import ReputationPassport.Service.Recalculation
import ReputationPassport.Service.KeptColumns
import ReputationPassport.Service.Revocation
import ReputationPassport.Handler.Api
import ReputationPassport.Configuration.Load
import ReputationPassport.Analytics.Query
import ReputationPassport.Dispute.Record
import ReputationPassport.System.Profile
import ReputationPassport.System.Issuing
import ReputationPassport.System.Events
import ReputationPassport.Server.Guard
import ReputationPassport.Server.Answers
import ReputationPassport.Service.Listing
import ReputationPassport.Service.Accounts
import ReputationPassport.Service.Ranking
import ReputationPassport.Middleware.Cleanup
import ReputationPassport.Analytics.Reputation
