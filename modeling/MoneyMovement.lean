import MoneyMovement.Basic.Canonical
import MoneyMovement.Auth.Revocation
import MoneyMovement.Auth.Registration
import MoneyMovement.Auth.Login
import MoneyMovement.Auth.Guard
import MoneyMovement.Users.Verification
import MoneyMovement.Runs.Ledger
import MoneyMovement.Runs.Limits
import MoneyMovement.Runs.Deadlines
import MoneyMovement.Runs.Replay
import MoneyMovement.Runs.Spellings
import MoneyMovement.Runs.Completeness
import MoneyMovement.Runs.Exactness
import MoneyMovement.Runs.Velocity
import MoneyMovement.Runs.Endings
import MoneyMovement.Runs.Histories
import MoneyMovement.Runs.Once
import MoneyMovement.Outbox.Attempts
import MoneyMovement.Outbox.Progress
import MoneyMovement.Queries.Balances
import MoneyMovement.Queries.Feed
import MoneyMovement.Queries.Headroom
import MoneyMovement.Queries.Outsiders
import MoneyMovement.Queries.Search
import MoneyMovement.Queries.Walks
import MoneyMovement.Redis.Expiry
import MoneyMovement.Http.Exchanges
import MoneyMovement.Web.Activity
import MoneyMovement.Web.Send
import MoneyMovement.Web.Requests
