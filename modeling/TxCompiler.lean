import TxCompiler.Run
import TxCompiler.Str
import TxCompiler.Numeral
import TxCompiler.Slice
import TxCompiler.Hex
import TxCompiler.Base58
import TxCompiler.Wire
import TxCompiler.Proto3
import TxCompiler.Rlp
import TxCompiler.Json
import TxCompiler.Serde
import TxCompiler.Types
import TxCompiler.Crates
import TxCompiler.TronAddress
import TxCompiler.TronProto
import TxCompiler.Varint
import TxCompiler.RawData
import TxCompiler.ProtoDecode
import TxCompiler.Tron
import TxCompiler.Evm
import TxCompiler.Review
import TxCompiler.Validate
import TxCompiler.Reference
import TxCompiler.Calldata
import TxCompiler.TransferCalldata
import TxCompiler.AddressForms
import TxCompiler.Validated
import TxCompiler.Amounts
import TxCompiler.Language
import TxCompiler.Layout
import TxCompiler.Safety
import TxCompiler.Range
import TxCompiler.CostEstimate
import TxCompiler.Discipline
import TxCompiler.TronSigned
import TxCompiler.TronCanonical
import TxCompiler.EvmSigned
import TxCompiler.Eip1559Rules
import TxCompiler.Meaning
import TxCompiler.Artefact
import TxCompiler.Answer
import TxCompiler.Reading
import TxCompiler.Shown
import TxCompiler.Entrances
import TxCompiler.Verdict
import TxCompiler.RuleBook
import TxCompiler.CompileRules
import TxCompiler.Outputs
import TxCompiler.Recompile
import TxCompiler.Signable
import TxCompiler.Sizes
