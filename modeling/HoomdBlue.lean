import HoomdBlue.MeshGroups
import HoomdBlue.MeshBondScan
import HoomdBlue.MeshConstruction
import HoomdBlue.MpcdSorter
import HoomdBlue.MpcdSorterOrder
import HoomdBlue.HoomdMath
import HoomdBlue.PotentialBond
import HoomdBlue.PotentialBondSums
import HoomdBlue.PotentialBondEnergyDiff
import HoomdBlue.PotentialBondGradient
import HoomdBlue.PotentialBondRefinement
import HoomdBlue.MeshBondPotential
import HoomdBlue.JanusEnvelope
import HoomdBlue.JanusEnvelopeGradient
