import PqLightning.TxBuilder.DustExposure
import PqLightning.InteractiveTx.Agreement
import PqLightning.InteractiveTx.Duplicates
import PqLightning.Closing.SameTransaction
import PqLightning.Commitment.NoUnderflow
import PqLightning.Persist.Crash
import PqLightning.Persist.Completion
import PqLightning.Chain.FeeBumps
import PqLightning.Monitor.Preimages
import PqLightning.Monitor.Punishment
import PqLightning.Gossip.Cursor
import PqLightning.Gossip.Partition
import PqLightning.Gossip.Updates
import PqLightning.Transport.Stream
import PqLightning.Crypto.DummyCiphertext
import PqLightning.Onion.PayloadAmounts
import PqLightning.Onion.Refinement
import PqLightning.Onion.AmtToForward
import PqLightning.WalletUtils
import PqLightning.Gossip.KemKeys
import PqLightning.Offers.PayerVerification
import PqLightning.Offers.PqBytes
import PqLightning.Routing.PathFees
import PqLightning.Liquidity.PendingRequests
