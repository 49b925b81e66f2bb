import PgSprite.Copier.Cutting
import PgSprite.Applier.SnapshotText
import PgSprite.Applier.Deferral
import PgSprite.Applier.Fallback
import PgSprite.Applier.Merge
import PgSprite.Applier.Origin
import PgSprite.Live.Faults
import PgSprite.Live.Converted
import PgSprite.Live.Saved
import PgSprite.SchemaChange.SwapLive
import PgSprite.Checkpoint.Store
import PgSprite.SchemaChange.Cutover
import PgSprite.Handover.Flushes
import PgSprite.Copier.Retry
import PgSprite.SchemaChange.Grants
import PgSprite.Executor.Validate
import PgSprite.Lint.Check
import PgSprite.Migrate.AcceptBlocking
import PgSprite.Migrate.Desired
import PgSprite.Preflight.TableUsage
import PgSprite.Applier.Exact
