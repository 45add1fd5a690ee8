import IdlGen.Main
import IdlGen.Proofs.Additions
import IdlGen.Proofs.AliasChains
import IdlGen.Proofs.AttributeNames
import IdlGen.Proofs.CarriedContent
import IdlGen.Proofs.CitedConstants
import IdlGen.Proofs.Docstrings
import IdlGen.Proofs.EscapingFaults
import IdlGen.Proofs.HashableReach
import IdlGen.Proofs.HashedKeys
import IdlGen.Proofs.Keywords
import IdlGen.Proofs.MadeClasses
import IdlGen.Proofs.SetOrder
import IdlGen.Proofs.SnakeNames
import IdlGen.Proofs.TopLevelNames
import IdlGen.Proofs.Unparsing
import IdlGen.Proofs.Validity
