import MachineCode.Proofs.Arm64.BitfieldMeaning
import MachineCode.Proofs.Arm64.PatternValues
import MachineCode.Proofs.Arm64.Selection
import MachineCode.Proofs.Arm64.TestedCondition
import MachineCode.Proofs.C64x.Addressing
import MachineCode.Proofs.C64x.IdiomMeaning
import MachineCode.Proofs.FirstRule
import MachineCode.Proofs.GroupFlow
import MachineCode.Proofs.NegativeConstants
import MachineCode.Proofs.RegisterLists
import MachineCode.Proofs.RelativeTargets
import MachineCode.Proofs.RiscV.CompressedFlow
import MachineCode.Proofs.RiscV.Layouts
import MachineCode.Proofs.RiscV.Linking
import MachineCode.Proofs.RiscV.ReservedParcels
import MachineCode.Proofs.RiscV.Subset
import MachineCode.Proofs.Sweep.FixedWidth
import MachineCode.Proofs.Sweep.Partition
import MachineCode.Proofs.Sweep.Relabelling
import MachineCode.Proofs.Table.Acceptance
import MachineCode.Proofs.Table.Safety
import MachineCode.Proofs.WordFields
